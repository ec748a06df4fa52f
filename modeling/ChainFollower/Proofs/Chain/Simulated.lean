import ChainFollower.Chain.Simulated
import ChainFollower.Proofs.Ledger
import Mathlib.Data.List.Nodup

namespace ChainFollower

namespace SimulatedChain

/-- The block at the end of a branch on the genesis block, which has its newest block in front. -/
def top (bs : List Header) : Header := bs.headD genesis

/-- Known blocks, each on the one after it, and the oldest on the genesis block. -/
def Rooted (known : List Header) : List Header → Prop
  | [] => True
  | b :: below => b ∈ known ∧ b.parent = (top below).hash ∧ b.height.toNat = below.length + 1 ∧
      Rooted known below

/-- All blocks that were ever mined, and the genesis block. -/
def known (c : SimulatedChain) : List Header := c.blocks.map MinedBlock.header

def Distinct (c : SimulatedChain) : Prop := (c.known.map Header.hash).Nodup

variable {c c' : SimulatedChain} {known known' bs cs below : List Header} {b : Header}

@[simp] theorem top_nil : top [] = genesis := rfl

@[simp] theorem top_cons : top (b :: below) = b := rfl

theorem Rooted.mono (h : Rooted known bs) (hsub : known ⊆ known') : Rooted known' bs := by
  induction bs with
  | nil => trivial
  | cons b below ih => exact ⟨hsub h.1, h.2.1, h.2.2.1, ih h.2.2.2⟩

theorem Rooted.suffix (h : Rooted known cs) (hsuffix : bs <:+ cs) : Rooted known bs := by
  obtain ⟨upper, rfl⟩ := hsuffix
  induction upper with
  | nil => exact h
  | cons b upper ih => exact ih h.2.2.2

theorem Rooted.height_top (h : Rooted known bs) : (top bs).height.toNat = bs.length := by
  cases bs with
  | nil => rfl
  | cons b below => exact h.2.2.1

theorem Rooted.top_mem (h : Rooted known bs) (hgenesis : genesis ∈ known) : top bs ∈ known := by
  cases bs with
  | nil => exact hgenesis
  | cons b below => exact h.1

theorem Rooted.height_le (h : Rooted known bs) (hb : b ∈ bs) : b.height.toNat ≤ bs.length := by
  induction bs with
  | nil => cases hb
  | cons b' below ih =>
    rcases List.mem_cons.mp hb with rfl | hb
    · exact Nat.le_of_eq h.2.2.1
    · exact Nat.le_succ_of_le (ih h.2.2.2 hb)

theorem Rooted.lt_height {upper lower : List Header} (h : Rooted known (upper ++ lower)) (hb : b ∈ upper) :
    lower.length < b.height.toNat := by
  induction upper with
  | nil => cases hb
  | cons b' upper ih =>
    rcases List.mem_cons.mp hb with rfl | hb
    · have hheight : b.height.toNat = (upper ++ lower).length + 1 := h.2.2.1
      rw [hheight, List.length_append]
      omega
    · exact ih h.2.2.2 hb

theorem Rooted.parentTip (h : Rooted known (b :: below)) : b.parentTip = (top below).tip := by
  have hheight : lower b.height = (top below).height :=
    Ledger.lower_eq_of_succ (by rw [h.2.2.1, h.2.2.2.height_top])
  rw [Header.parentTip, hheight, h.2.1]
  rfl

theorem eq_of_hash (hdistinct : (known.map Header.hash).Nodup) (hb : b ∈ known) {b' : Header}
    (hb' : b' ∈ known) (h : b.hash = b'.hash) : b = b' :=
  List.inj_on_of_nodup_map hdistinct hb hb' h

/-- A hash says what lies below it. -/
theorem Rooted.unique (hdistinct : (known.map Header.hash).Nodup) (hgenesis : genesis ∈ known)
    (h : Rooted known bs) (h' : Rooted known cs) (htop : (top bs).hash = (top cs).hash) : bs = cs := by
  have heq : top bs = top cs := eq_of_hash hdistinct (h.top_mem hgenesis) (h'.top_mem hgenesis) htop
  have hlength : bs.length = cs.length := by rw [← h.height_top, heq, h'.height_top]
  induction bs generalizing cs with
  | nil => exact (List.eq_nil_of_length_eq_zero hlength.symm).symm
  | cons b below ih =>
    cases cs with
    | nil => cases hlength
    | cons b' below' =>
      obtain rfl : b = b' := heq
      have hparent : (top below).hash = (top below').hash := h.2.1.symm.trans h'.2.1
      rw [ih h.2.2.2 h'.2.2.2 hparent
        (eq_of_hash hdistinct (h.2.2.2.top_mem hgenesis) (h'.2.2.2.top_mem hgenesis) hparent)
        (Nat.succ.inj hlength)]

/-- What holds of a chain however it was mined. -/
structure Grown (c : SimulatedChain) : Prop where
  genesis : genesis ∈ c.known
  rooted : ∀ b ∈ c.known, b = SimulatedChain.genesis ∨ ∃ below, Rooted c.known (b :: below)
  branch : Rooted c.known c.branch
  online : c.offline = false

theorem grown_start (network : Network) : (start network).Grown where
  genesis := List.mem_singleton_self _
  rooted _ hb := .inl (List.mem_singleton.mp hb)
  branch := trivial
  online := rfl

theorem exists_block (hb : b ∈ c.known) :
    ∃ m ∈ c.blocks, m.header.hash = b.hash ∧ c.block? b.hash = some m := by
  obtain ⟨m, hm, rfl⟩ := List.mem_map.mp hb
  cases hfind : c.block? m.header.hash with
  | none =>
    have hnone := List.find?_eq_none.mp hfind m hm
    simp at hnone
  | some m' =>
    have hsome := List.find?_some hfind
    exact ⟨m', List.mem_of_find?_eq_some hfind, by simpa using hsome, rfl⟩

theorem Distinct.of_attach {moves : List (String × Json)} (h : (c.attach moves).2.Distinct) : c.Distinct :=
  (List.nodup_cons.mp h).2

theorem Grown.rooted_attach (h : c.Grown) (hsize : c.branch.length + 1 < UInt64.size)
    (moves : List (String × Json)) :
    Rooted (c.attach moves).2.known (c.attach moves).2.branch := by
  refine ⟨List.mem_cons_self, rfl, ?_, h.branch.mono (List.subset_cons_self _ _)⟩
  have hheight := h.branch.height_top
  change ((top c.branch).height + 1).toNat = c.branch.length + 1
  rw [UInt64.toNat_add, hheight]
  exact Nat.mod_eq_of_lt hsize

theorem Grown.attach (h : c.Grown) (hsize : c.branch.length + 1 < UInt64.size)
    (moves : List (String × Json)) : (c.attach moves).2.Grown where
  genesis := List.mem_cons_of_mem _ h.genesis
  rooted b hb := by
    rcases List.mem_cons.mp hb with rfl | hb
    · exact .inr ⟨c.branch, h.rooted_attach hsize moves⟩
    · refine (h.rooted b hb).imp_right ?_
      rintro ⟨below, hbelow⟩
      exact ⟨below, hbelow.mono (List.subset_cons_self _ _)⟩
  branch := h.rooted_attach hsize moves
  online := h.online

/-- A branch with the new block in it ends with it. -/
theorem Grown.rooted_of_attach (h : c.Grown) (hsize : c.branch.length + 1 < UInt64.size)
    {moves : List (String × Json)} (hdistinct : (c.attach moves).2.Distinct)
    (hbs : Rooted (c.attach moves).2.known bs) :
    bs = (c.attach moves).2.branch ∨ Rooted c.known bs := by
  have hgrown := h.attach hsize moves
  induction bs with
  | nil => exact .inr trivial
  | cons b below ih =>
    by_cases hnew : b = (c.attach moves).1
    · refine .inl (Rooted.unique hdistinct hgrown.genesis hbs hgrown.branch ?_)
      rw [hnew]
      rfl
    have hb : b ∈ c.known := (List.mem_cons.mp hbs.1).resolve_left hnew
    rcases ih hbs.2.2.2 with rfl | hbelow
    · -- An older block does not lie on the new one.
      rcases h.rooted b hb with rfl | ⟨below', hbelow'⟩
      · have hheight := hbs.2.2.1
        cases hheight
      · have hparent : (top below').hash = (c.attach moves).1.hash := hbelow'.2.1.symm.trans hbs.2.1
        have hmem := hbelow'.2.2.2.top_mem h.genesis
        have hne := (List.nodup_cons.mp hdistinct).1
        exact absurd (List.mem_map.mpr ⟨top below', hmem, hparent⟩) hne
    · exact .inr ⟨hb, hbs.2.1, hbs.2.2.1, hbelow⟩

theorem detach_eq_ok {b : Header} (h : c.detach = .ok (b, c')) :
    c.branch = b :: c'.branch ∧ c' = { c with branch := c'.branch } := by
  unfold detach at h
  split at h
  · cases h
  · next header branch hbranch =>
    cases h
    exact ⟨hbranch, rfl⟩

theorem known_detach {b : Header} (h : c.detach = .ok (b, c')) : c'.known = c.known := by
  rw [(detach_eq_ok h).2]
  rfl

theorem Grown.detach (h : c.Grown) {b : Header} (hdetach : c.detach = .ok (b, c')) : c'.Grown := by
  obtain ⟨hbranch, hc'⟩ := detach_eq_ok hdetach
  have hknown := known_detach hdetach
  refine ⟨?_, ?_, ?_, ?_⟩
  · rw [hknown]
    exact h.genesis
  · rw [hknown]
    exact h.rooted
  · rw [hknown]
    exact h.branch.suffix (hbranch ▸ List.suffix_cons b c'.branch)
  · rw [hc']
    exact h.online

theorem getElem?_canonical {k : Nat} (hk : k ≤ c.branch.length) :
    c.canonical[k]? = some (top (c.branch.drop k)) := by
  rw [canonical]
  rcases Nat.lt_or_eq_of_le hk with hlt | rfl
  · rw [List.getElem?_append_left hlt, List.drop_eq_getElem_cons hlt, List.getElem?_eq_getElem hlt]
    rfl
  · rw [List.drop_length, List.getElem?_append_right (Nat.le_refl _), Nat.sub_self]
    rfl

theorem hashAt_eq {height : UInt64} (h : height.toNat ≤ c.branch.length) :
    c.hashAt height = some (top (c.branch.drop (c.branch.length - height.toNat))).hash := by
  rw [hashAt, if_pos h, getElem?_canonical (Nat.sub_le _ _)]
  rfl

/-- A branch is canonical where the chain has its last block at the height of this. -/
theorem Grown.hashAt_top_iff (h : c.Grown) (hdistinct : c.Distinct) (hbs : Rooted c.known bs) :
    c.hashAt (top bs).height = some (top bs).hash ↔ bs <:+ c.branch := by
  constructor
  · intro hhash
    have hle : (top bs).height.toNat ≤ c.branch.length := by
      refine Decidable.byContradiction fun hgt => ?_
      rw [hashAt, if_neg hgt] at hhash
      cases hhash
    rw [hashAt_eq hle] at hhash
    have hdrop := List.drop_suffix (c.branch.length - (top bs).height.toNat) c.branch
    have heq := Rooted.unique hdistinct h.genesis hbs (h.branch.suffix hdrop) (Option.some.inj hhash).symm
    exact heq ▸ hdrop
  · intro hsuffix
    have hheight := hbs.height_top
    rw [hashAt_eq (by rw [hheight]; exact hsuffix.length_le), hheight, ← List.suffix_iff_eq_drop.mp hsuffix]

/-- Above a canonical branch comes the canonical block. -/
theorem Grown.hashAt_succ (h : c.Grown) (hsize : c.branch.length < UInt64.size)
    (hsuffix : bs <:+ c.branch) (hlt : bs.length < c.branch.length) :
    ∃ b, b :: bs <:+ c.branch ∧ b.height = (top bs).height + 1 ∧
      c.hashAt ((top bs).height + 1) = some b.hash := by
  obtain ⟨upper, hupper⟩ := hsuffix
  rcases List.eq_nil_or_concat upper with rfl | ⟨rest, b, rfl⟩
  · rw [← hupper] at hlt
    exact absurd hlt (Nat.lt_irrefl _)
  · have hb : b :: bs <:+ c.branch := ⟨rest, by rw [← hupper]; simp⟩
    have hrooted := h.branch.suffix hb
    have hheight : b.height = (top bs).height + 1 := by
      apply UInt64.toNat_inj.mp
      rw [hrooted.2.2.1, UInt64.toNat_add, hrooted.2.2.2.height_top]
      have hle : bs.length + 1 ≤ c.branch.length := hlt
      exact (Nat.mod_eq_of_lt (Nat.lt_of_le_of_lt hle hsize)).symm
    refine ⟨b, hb, hheight, ?_⟩
    have hle := hb.length_le
    rw [← hheight, hashAt_eq (by rw [hrooted.2.2.1]; exact hle), hrooted.2.2.1]
    have hdrop := List.suffix_iff_eq_drop.mp hb
    rw [List.length_cons] at hdrop
    rw [← hdrop]
    rfl

end SimulatedChain

end ChainFollower
