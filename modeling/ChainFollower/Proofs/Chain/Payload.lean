import ChainFollower.Chain.Simulated
import ChainFollower.Proofs.Json.Text

namespace ChainFollower

open Json (Codec)

theorem Json.Codec.hash_toJson (h : Hash) : Codec.hash.ofJson h.toJson = .ok h := by
  change (Hash.ofHex h.toHex).mapError _ = _
  rw [Hash.ofHex_toHex]
  rfl

theorem Json.Codec.uint64_ofUInt64 (n : UInt64) : Codec.uint64.ofJson (.ofUInt64 n) = .ok n := by
  have h : (0 : Int) ≤ n.toNat ∧ (n.toNat : Int) < UInt64.size := by
    have hlt : n.toNat < UInt64.size := n.toNat_lt
    constructor <;> omega
  simp only [Codec.uint64, Codec.bounded, Json.ofUInt64, if_pos h, Int.toNat_natCast, UInt64.ofNat_toNat]

theorem Json.Codec.Slot.ofJson_of {σ α : Type} {name : String} {c : Codec α} {get : σ → Option α}
    {set : σ → α → σ} {j : Json} {a : α} (s : σ) (h : c.ofJson j = .ok a) :
    (Codec.Slot.of name c get set).ofJson j s = .ok (set s a) := by
  simp only [Codec.Slot.of, h, Except.map]

theorem Json.Codec.Shape.fillFields_cons {σ α : Type} {shape : Codec.Shape σ α} {key : String} {v : Json}
    {fields : List (String × Json)} {s s' : σ} {slot : Codec.Slot σ} (hslot : shape.slot? key = some slot)
    (hv : slot.ofJson v s = .ok s') :
    shape.fillFields s ((key, v) :: fields) = shape.fillFields s' fields := by
  simp only [Codec.Shape.fillFields, hslot, hv]

theorem MinedBlock.payloadHeader_payload (b : MinedBlock) (game : String) :
    payloadHeader (b.payload game) = .ok b.header := by
  obtain ⟨⟨hash, parent, height⟩, moves⟩ := b
  have hheader : Header.codec.ofJson (.obj [
      ("hash", hash.toJson), ("height", .ofUInt64 height), ("parent", parent.toJson),
      ("timestamp", .ofUInt64 (height * 60))]) = .ok ⟨hash, parent, height⟩ := by
    unfold Header.codec Codec.Shape.codec Codec.Shape.ofJson
    simp only
    rw [Codec.Shape.fillFields_cons rfl (Codec.Slot.ofJson_of _ (Codec.hash_toJson hash)),
      Codec.Shape.fillFields_cons rfl (Codec.Slot.ofJson_of _ (Codec.uint64_ofUInt64 height)),
      Codec.Shape.fillFields_cons rfl (Codec.Slot.ofJson_of _ (Codec.hash_toJson parent))]
    rfl
  unfold payloadHeader payloadCodec Codec.Shape.codec Codec.Shape.ofJson MinedBlock.payload
  simp only
  rw [Codec.Shape.fillFields_cons rfl (Codec.Slot.ofJson_of _ hheader)]
  rfl

theorem Json.tidyItems {depth : Nat} {items : List Json} (h : ∀ j ∈ items, Tidy depth j) :
    TidyItems depth items := by
  induction items with
  | nil => trivial
  | cons j items ih => exact ⟨h j List.mem_cons_self, ih fun k hk => h k (List.mem_cons_of_mem j hk)⟩

theorem MinedBlock.tidy_payload {b : MinedBlock} (h : ∀ m ∈ b.moves, Json.Tidy (Json.maxDepth - 2) m.2)
    (game : String) : Json.Tidy Json.maxDepth (b.payload game) := by
  have hmoves : Json.TidyItems (Json.maxDepth - 2) ((b.moves.filter fun m => m.1 == game).map Prod.snd) := by
    refine Json.tidyItems fun j hj => ?_
    obtain ⟨m, hm, rfl⟩ := List.mem_map.mp hj
    exact h m (List.mem_filter.mp hm).1
  have hnumber : ∀ n : UInt64, Json.Tidy (Json.maxDepth - 2) (.ofUInt64 n) := by
    intro n
    have hlt : n.toNat < UInt64.size := n.toNat_lt
    refine ⟨?_, ?_⟩ <;> omega
  have hkeys : ["block", "moves"].Pairwise (· < ·) ∧
      ["hash", "height", "parent", "timestamp"].Pairwise (· < ·) := by decide
  exact ⟨hkeys.1, ⟨hkeys.2, trivial, hnumber _, trivial, hnumber _, trivial⟩, hmoves, trivial⟩

end ChainFollower
