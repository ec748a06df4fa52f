import ChainFollower.Proofs.Chain.Simulated
import ChainFollower.Proofs.Simulation.Games
import ChainFollower.Proofs.Sync.Publishing

namespace ChainFollower

namespace Simulation

open SimulatedChain (Rooted top)

/-- What a simulation and its followers are set to. -/
structure Terms where
  /-- How many blocks a reorganization replaces at most. -/
  depth : Nat
  /-- The height of the last block. -/
  summit : Nat
  retry : RetryPolicy

/-- The chain under these terms: blocks far enough below a mined one are canonical, and nothing but the
last block comes up to the height of the last block. -/
structure Charted (T : Terms) (c : SimulatedChain) : Prop where
  grown : c.Grown
  distinct : c.Distinct
  deep : ∀ bs, Rooted c.known bs → bs.drop T.depth <:+ c.branch
  most : ∀ bs, Rooted c.known bs → bs.length ≤ T.summit
  last : c.branch.length = T.summit → ∀ bs, Rooted c.known bs → bs.length = T.summit → bs = c.branch
  summit_le : T.summit ≤ 2 ^ 60

/-- Blocks that no reorganization reaches any more. -/
def Buried (depth : Nat) (known lower : List Header) : Prop := ∃ bs, Rooted known bs ∧ lower <:+ bs.drop depth

/-- Every block that can still leave the chain has a record that undoes it, not below `floor`. -/
def Covered (side : Side) (depth : Nat) (known : List Header) (held : Holdings) (floor : UInt64)
    (bs : List Header) : Prop :=
  ∃ upper lower, bs = upper ++ lower ∧ Buried depth known lower ∧
    ∀ b ∈ upper, floor ≤ b.height ∧ ∃ record, held.record b.tip = some record ∧ record.parent = b.parent ∧
      side.Undoable record.undo

/-- A follower that has applied these blocks. -/
structure Follows (side : Side) (T : Terms) (known : List Header) (held : Holdings)
    (f : Follower) (v : View) (bs : List Header) : Prop where
  view : f.view = some v
  retry : f.retry = T.retry
  pruning : ∀ n, f.pruning = some n → T.depth ≤ n.toNat + 1
  published : f.watch.last = f.status
  initial : v.initial = genesis
  started : f.state ≠ .uninitialized
  rooted : Rooted known bs
  tip : v.current.tip = (top bs).tip
  valid : side.Valid bs.length v.current.state
  covered : Covered side T.depth known held 0 bs

variable {side : Side} {T : Terms} {depth : Nat} {known known' : List Header}
  {held : Holdings} {f : Follower} {v : View} {bs below : List Header} {b : Header} {c : SimulatedChain}

theorem Buried.mono {lower : List Header} (h : Buried depth known lower) (hsub : known ⊆ known') :
    Buried depth known' lower := by
  obtain ⟨bs, hbs, hlower⟩ := h
  exact ⟨bs, hbs.mono hsub, hlower⟩

theorem Buried.canonical {lower : List Header} (h : Buried T.depth c.known lower) (hc : Charted T c) :
    lower <:+ c.branch := by
  obtain ⟨bs, hbs, hlower⟩ := h
  exact hlower.trans (hc.deep bs hbs)

theorem Covered.mono {floor : UInt64} (h : Covered side depth known held floor bs) (hsub : known ⊆ known') :
    Covered side depth known' held floor bs := by
  obtain ⟨upper, lower, hbs, hlower, hupper⟩ := h
  exact ⟨upper, lower, hbs, hlower.mono hsub, hupper⟩

theorem covered_nil : Covered side depth known held 0 [] :=
  ⟨[], [], rfl, ⟨[], trivial, List.nil_suffix⟩, List.forall_mem_nil _⟩

/-- A block that is not canonical any more can be undone. -/
theorem Covered.undo (h : Covered side T.depth c.known held 0 (b :: below)) (hc : Charted T c)
    (hstale : ¬b :: below <:+ c.branch) :
    Covered side T.depth c.known held 0 below ∧ ∃ record, held.record b.tip = some record ∧
      record.parent = b.parent ∧ side.Undoable record.undo := by
  obtain ⟨upper, lower, hbs, hlower, hupper⟩ := h
  cases upper with
  | nil => exact absurd (hbs ▸ hlower.canonical hc) hstale
  | cons b' upper =>
    obtain ⟨rfl, rfl⟩ := List.cons.inj hbs
    exact ⟨⟨upper, lower, rfl, hlower, fun b hb => hupper b (List.mem_cons_of_mem _ hb)⟩,
      (hupper b List.mem_cons_self).2⟩

/-- The block that is applied gets its record. -/
theorem Covered.forward {floor : UInt64} (h : Covered side depth known held floor bs)
    (hrooted : Rooted known (b :: bs)) (state : Bytes) {undo : Bytes} (hundo : side.Undoable undo) :
    Covered side depth known (held.commit (.forward b.tip state b.parent undo)) 0 (b :: bs) := by
  obtain ⟨upper, lower, rfl, hlower, hupper⟩ := h
  refine ⟨b :: upper, lower, rfl, hlower, fun b' hb' => ⟨UInt64.zero_le, ?_⟩⟩
  rw [Holdings.record_commit_forward]
  rcases List.mem_cons.mp hb' with rfl | hmem
  · exact ⟨_, if_pos rfl, rfl, hundo⟩
  · have hlt : b'.height.toNat < b.height.toNat := by
      have hle := hrooted.2.2.2.height_le (List.mem_append_left lower hmem)
      rw [hrooted.2.2.1]
      omega
    have hne : b'.tip ≠ b.tip := by
      intro heq
      rw [show b'.height = b.height from congrArg Tip.height heq] at hlt
      exact Nat.lt_irrefl _ hlt
    rw [if_neg hne]
    exact (hupper b' hmem).2

/-- Records that lie too far below the tip belong to blocks that no reorganization reaches. -/
theorem Covered.raise {floor : UInt64} (h : Covered side depth known held 0 bs) (hrooted : Rooted known bs)
    (hfloor : floor.toNat + depth ≤ bs.length + 1) : Covered side depth known held floor bs := by
  have hle : ∀ {upper lower : List Header}, bs = upper ++ lower → bs.length ≤ lower.length + depth →
      ∀ b ∈ upper, floor ≤ b.height := by
    rintro upper lower rfl hlower b hb
    have hlt := hrooted.lt_height hb
    rw [UInt64.le_iff_toNat_le]
    omega
  obtain ⟨upper, lower, hbs, hlower, hupper⟩ := h
  by_cases hlong : bs.length ≤ lower.length + depth
  · exact ⟨upper, lower, hbs, hlower, fun b hb => ⟨hle hbs hlong b hb, (hupper b hb).2⟩⟩
  · refine ⟨bs.take depth, bs.drop depth, (List.take_append_drop _ _).symm, ⟨bs, hrooted, List.suffix_rfl⟩,
      fun b hb => ⟨hle (List.take_append_drop _ _).symm ?_ b hb, ?_⟩⟩
    · rw [List.length_drop]
      omega
    · have hshort : depth ≤ upper.length := by
        rw [hbs, List.length_append] at hlong
        omega
      rw [hbs, List.take_append_of_le_length hshort] at hb
      exact (hupper b (List.mem_of_mem_take hb)).2

theorem Covered.dropBelow {floor : UInt64} (h : Covered side depth known held floor bs) :
    Covered side depth known (held.dropBelow floor) 0 bs := by
  obtain ⟨upper, lower, hbs, hlower, hupper⟩ := h
  refine ⟨upper, lower, hbs, hlower, fun b hb => ⟨UInt64.zero_le, ?_⟩⟩
  obtain ⟨hfloor, record, hrecord, hkept⟩ := hupper b hb
  refine ⟨record, ?_, hkept⟩
  change (if b.height < floor then none else held.record b.tip) = some record
  rw [if_neg (UInt64.not_lt.mpr hfloor), hrecord]

namespace Follows

theorem mono (h : Follows side T known held f v bs) (hsub : known ⊆ known') :
    Follows side T known' held f v bs :=
  { h with rooted := h.rooted.mono hsub, covered := h.covered.mono hsub }

theorem setState (h : Follows side T known held f v bs) {state : SyncState}
    (hstate : state ≠ .uninitialized) : Follows side T known held (f.setState state) v bs where
  view := h.view
  retry := h.retry
  pruning := h.pruning
  published := Watch.last_publish
  initial := h.initial
  started := hstate
  rooted := h.rooted
  tip := h.tip
  valid := h.valid
  covered := h.covered

theorem fail (h : Follows side T known held f v bs) :
    Follows side T known held f.fail v bs := by
  rw [Follower.fail, if_neg h.started]
  exact h.setState (by decide)

/-- The follower sees another state, which has been committed. -/
theorem setCurrent (h : Follows side T known held f v bs) {held' : Holdings} {bs' : List Header}
    {stored : StoredState} (hrooted : Rooted known bs') (htip : stored.tip = (top bs').tip)
    (hvalid : side.Valid bs'.length stored.state) (hcovered : Covered side T.depth known held' 0 bs') :
    Follows side T known held' (f.setCurrent stored) { v with current := stored } bs' where
  view := by rw [Follower.view_setCurrent, h.view]; rfl
  retry := h.retry
  pruning := h.pruning
  published := Watch.last_publish
  initial := h.initial
  started := h.started
  rooted := hrooted
  tip := htip
  valid := hvalid
  covered := hcovered

end Follows

end Simulation

end ChainFollower
