import ChainFollower.Game.Registry
import ChainFollower.Proofs.Json.Codec

namespace ChainFollower

namespace Registry

open Json (Codec)

theorem parse_encode_table (t : Table) : tableCodec.parse t.encode = .ok t :=
  (Codec.reads_shape (Codec.reads_entries fun entry _ => Codec.reads_string entry.2)).parse

/-- What a name held before, if it was there. -/
theorem reads_before (before : Option String) :
    Codec.Reads (.nullable .string) (match before with | some value => .str value | none => .null) before := by
  cases before with
  | none => exact Codec.reads_nullable_none
  | some value => exact Codec.reads_nullable_string value

theorem parse_encode_undo (u : Undo) : undoCodec.parse (Undo.encode u) = .ok u :=
  (Codec.reads_shape (Codec.reads_list fun entry _ =>
    Codec.reads_pair (Codec.reads_string entry.1) (reads_before entry.2))).parse

theorem decode?_encode_table (t : Table) : Table.decode? t.encode = some (Table.ofEntries t) := by
  rw [Table.decode?, parse_encode_table]
  rfl

theorem decode?_encode_undo (u : Undo) : Undo.decode? (Undo.encode u) = some u := by
  rw [Undo.decode?, parse_encode_undo]
  rfl

/-- On a state it has written, the game applies every block. -/
theorem forward_encode (t : Table) (block : Json) :
    ∃ (t' : Table) (u : Undo), forward t.encode block = .ok ⟨t'.encode, Undo.encode u⟩ := by
  unfold forward
  rw [decode?_encode_table]
  exact ⟨_, _, rfl⟩

/-- With states and undo data it has written, the game undoes every block. -/
theorem backward_encode (t : Table) (u : Undo) :
    ∃ t' : Table, backward t.encode (Undo.encode u) = .ok t'.encode := by
  unfold backward
  rw [decode?_encode_table]
  simp only [decode?_encode_undo]
  exact ⟨_, rfl⟩

end Registry

end ChainFollower
