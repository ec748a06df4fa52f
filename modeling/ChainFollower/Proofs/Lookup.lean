import Mathlib.Data.List.Basic

namespace ChainFollower

variable {α β : Type} [BEq α] [LawfulBEq α] [DecidableEq α]

theorem lookup_cons_if (a k : α) (v : β) (l : List (α × β)) :
    ((k, v) :: l).lookup a = if a = k then some v else l.lookup a := by
  rw [List.lookup_cons]
  by_cases h : a = k
  · simp [h]
  · have hb : (a == k) = false := beq_false_of_ne h
    rw [hb, if_neg h]

theorem lookup_filter_key (keep : α → Bool) (l : List (α × β)) (a : α) :
    (l.filter fun entry => keep entry.1).lookup a = if keep a then l.lookup a else none := by
  induction l with
  | nil => simp
  | cons entry rest ih =>
    obtain ⟨k, v⟩ := entry
    by_cases hk : keep k = true
    · rw [List.filter_cons_of_pos (by simpa using hk), lookup_cons_if, lookup_cons_if, ih]
      by_cases h : a = k
      · rw [if_pos h, if_pos h, h, if_pos hk]
      · rw [if_neg h, if_neg h]
    · rw [List.filter_cons_of_neg (by simpa using hk), lookup_cons_if, ih]
      by_cases h : a = k
      · rw [h, if_neg hk, if_neg hk]
      · rw [if_neg h]

theorem lookup_filter_ne {a k : α} (h : a ≠ k) (l : List (α × β)) :
    (l.filter fun entry => entry.1 != k).lookup a = l.lookup a :=
  (lookup_filter_key (· != k) l a).trans (if_pos (bne_iff_ne.mpr h))

end ChainFollower
