import ChainFollower.Game.Tally
import ChainFollower.Proofs.Text.Names

namespace ChainFollower

namespace Tally

theorem size_write (buffer : Buffer) (data : Bytes) : (write buffer data).size = buffer.size := by
  unfold write
  split <;> rfl

theorem take_write {buffer : Buffer} {data : Bytes} (h : data.length ≤ buffer.size) :
    (write buffer data).take data.length = data := by
  rw [write, if_pos h]
  exact Buffer.take_write h

theorem length_next (state : Bytes) (block : Json) :
    (state ++ Bytes.ofUInt32 (moveCount block.text)).length = state.length + 4 := by
  rw [List.length_append, Bytes.length_ofUInt32]

theorem names_zeros (size : Nat) : names ⟨.zeros size, .zeros size, .zeros size⟩ =
    (report (10 ≤ size) ⟨5, 10, 5⟩ 10, ⟨write (.zeros size) (Utf8.encode id),
      write (.zeros size) (Utf8.encode "Move tally"), write (.zeros size) (Utf8.encode "0.1.0")⟩) := by
  have hfits : (decide (5 ≤ size) && decide (10 ≤ size) && decide (5 ≤ size)) = decide (10 ≤ size) := by
    rw [Bool.eq_iff_iff]
    simp only [Bool.and_eq_true, decide_eq_true_eq]
    omega
  rw [← hfits]
  rfl

end Tally

end ChainFollower
