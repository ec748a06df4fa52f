import ChainFollower.Hash

namespace ChainFollower

namespace Hash

theorem compareBytes_lt_iff (a b : Bytes) : compareBytes a b = .lt ↔ a < b := by
  fun_induction compareBytes a b with
  | case1 => simp
  | case2 b hb =>
    cases b with
    | nil => exact absurd rfl hb
    | cons => simp
  | case3 => simp
  | case4 a r b s h => simp [List.cons_lt_cons_iff, h]
  | case5 a r b s h h' =>
    have hne : a ≠ b := by
      rintro rfl
      exact h h'
    simp [List.cons_lt_cons_iff, h, hne]
  | case6 a r b s h h' ih =>
    have heq : a = b := UInt8.le_antisymm (UInt8.not_lt.mp h') (UInt8.not_lt.mp h)
    rw [ih, List.cons_lt_cons_iff]
    simp [heq]

theorem compareBytes_eq_iff (a b : Bytes) : compareBytes a b = .eq ↔ a = b := by
  fun_induction compareBytes a b with
  | case1 => simp
  | case2 b hb =>
    refine iff_of_false nofun ?_
    rintro rfl
    exact hb rfl
  | case3 a ha =>
    refine iff_of_false nofun ?_
    rintro rfl
    exact ha rfl
  | case4 a r b s h =>
    refine iff_of_false nofun ?_
    rintro ⟨⟩
    exact UInt8.lt_irrefl a h
  | case5 a r b s h h' =>
    refine iff_of_false nofun ?_
    rintro ⟨⟩
    exact h h'
  | case6 a r b s h h' ih =>
    have heq : a = b := UInt8.le_antisymm (UInt8.not_lt.mp h') (UInt8.not_lt.mp h)
    rw [ih, List.cons.injEq, heq]
    simp only [true_and]

end Hash

end ChainFollower
