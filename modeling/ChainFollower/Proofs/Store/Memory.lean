import ChainFollower.Proofs.Hash
import ChainFollower.Proofs.Journal
import Mathlib.Data.List.Nodup

namespace ChainFollower

namespace Tip

variable {a b c : Tip}

theorem before_iff :
    a.before b = true ↔ a.height < b.height ∨ a.height = b.height ∧ a.hash.bytes < b.hash.bytes := by
  have hcompare : compare a.hash b.hash = .lt ↔ a.hash.bytes < b.hash.bytes :=
    Hash.compareBytes_lt_iff a.hash.bytes b.hash.bytes
  simp [before, hcompare]

theorem not_before_self : ¬a.before a = true := by
  rw [before_iff]
  rintro (h | ⟨_, h⟩)
  · exact UInt64.lt_irrefl _ h
  · exact List.lt_irrefl _ h

theorem before_trans (hab : a.before b = true) (hbc : b.before c = true) : a.before c = true := by
  rw [before_iff] at hab hbc ⊢
  rcases hab with hab | ⟨hab, hab'⟩
  · rcases hbc with hbc | ⟨hbc, _⟩
    · exact .inl (UInt64.lt_trans hab hbc)
    · exact .inl (hbc ▸ hab)
  · rcases hbc with hbc | ⟨hbc, hbc'⟩
    · exact .inl (hab ▸ hbc)
    · exact .inr ⟨hab.trans hbc, List.lt_trans hab' hbc'⟩

theorem before_or_eq_or_before (a b : Tip) : a.before b = true ∨ a = b ∨ b.before a = true := by
  by_cases hab : a.before b = true
  · exact .inl hab
  by_cases hba : b.before a = true
  · exact .inr (.inr hba)
  rw [before_iff, not_or, not_and] at hab hba
  have hheight : a.height = b.height :=
    UInt64.le_antisymm (UInt64.not_lt.mp hba.1) (UInt64.not_lt.mp hab.1)
  have hbytes : a.hash.bytes = b.hash.bytes :=
    List.le_antisymm (hba.2 hheight.symm) (hab.2 hheight)
  obtain ⟨height, bytes, _⟩ := a
  obtain ⟨height', bytes', _⟩ := b
  simp only at hheight hbytes
  subst hheight
  subst hbytes
  exact .inr (.inl rfl)

theorem height_le_of_before (h : a.before b = true) : a.height ≤ b.height := by
  rcases before_iff.mp h with h | ⟨h, _⟩
  · exact UInt64.le_of_lt h
  · exact h ▸ UInt64.le_refl _

end Tip

namespace MemoryStore

def Ordered (journal : List (Tip × UndoRecord)) : Prop :=
  journal.Pairwise fun a b => a.1.before b.1 = true

variable {tip : Tip} {record : UndoRecord} {journal : List (Tip × UndoRecord)}

theorem mem_insert {entry : Tip × UndoRecord} (h : entry ∈ insert tip record journal) :
    entry = (tip, record) ∨ entry ∈ journal := by
  induction journal with
  | nil => exact .inl (List.mem_singleton.mp h)
  | cons first rest ih =>
    unfold insert at h
    split at h
    · exact List.mem_cons.mp h
    · split at h
      · exact (List.mem_cons.mp h).imp_right (List.mem_cons_of_mem first)
      · rcases List.mem_cons.mp h with rfl | h
        · exact .inr List.mem_cons_self
        · exact (ih h).imp_right (List.mem_cons_of_mem first)

theorem Ordered.insert (h : Ordered journal) : Ordered (insert tip record journal) := by
  induction journal with
  | nil => exact List.pairwise_singleton _ _
  | cons first rest ih =>
    obtain ⟨hfirst, hrest⟩ := List.pairwise_cons.mp h
    unfold MemoryStore.insert
    split
    · next hbefore =>
      refine List.pairwise_cons.mpr ⟨?_, h⟩
      intro entry hentry
      rcases List.mem_cons.mp hentry with rfl | hm
      · exact hbefore
      · exact Tip.before_trans hbefore (hfirst entry hm)
    · next hbefore =>
      split
      · next heq =>
        refine List.pairwise_cons.mpr ⟨?_, hrest⟩
        intro entry hm
        exact heq ▸ hfirst entry hm
      · next hne =>
        have hafter : first.1.before tip = true := by
          rcases Tip.before_or_eq_or_before tip first.1 with h | h | h
          · exact absurd h hbefore
          · exact absurd h hne
          · exact h
        refine List.pairwise_cons.mpr ⟨?_, ih hrest⟩
        intro entry hentry
        rcases mem_insert hentry with rfl | hm
        · exact hafter
        · exact hfirst entry hm

theorem Ordered.commit {s : MemoryStore} (h : Ordered s.journal) (c : Commit) :
    Ordered (s.commit c).journal := by
  unfold MemoryStore.commit
  cases c.undo with
  | none => exact h
  | some record => exact h.insert

theorem Ordered.dropBelow {s : MemoryStore} (h : Ordered s.journal) (height : UInt64) :
    Ordered (s.dropBelow height).journal :=
  h.filter _

theorem Ordered.nodup (h : Ordered journal) : (journal.map Prod.fst).Nodup := by
  refine List.pairwise_map.mpr (h.imp ?_)
  intro a b hbefore heq
  rw [heq] at hbefore
  exact Tip.not_before_self hbefore

theorem Ordered.heights (h : Ordered journal) :
    (journal.map fun entry => entry.1.height).Pairwise (· ≤ ·) :=
  List.pairwise_map.mpr (h.imp fun hbefore => Tip.height_le_of_before hbefore)

theorem undo?_isSome_iff {s : MemoryStore} :
    (s.undo? tip).isSome ↔ tip ∈ s.journal.map Prod.fst := by
  rw [undo?, List.lookup_isSome_iff, List.mem_map]
  constructor
  · rintro ⟨entry, hentry, heq⟩
    exact ⟨entry, hentry, (eq_of_beq heq).symm⟩
  · rintro ⟨entry, hentry, rfl⟩
    exact ⟨entry, hentry, BEq.rfl⟩

end MemoryStore

end ChainFollower
