import ChainFollower.Store.Record

namespace ChainFollower

namespace Bytes

theorem toNat_ofUInt32 (n : UInt32) : toNat (ofUInt32 n) = n.toNat := by
  have h := n.toNat_lt
  simp only [ofUInt32, toNat, UInt32.toNat_toUInt8, UInt32.toNat_shiftRight, Nat.shiftRight_eq_div_pow]
  simp
  omega

theorem toNat_ofUInt64 (n : UInt64) : toNat (ofUInt64 n) = n.toNat := by
  have h := n.toNat_lt
  simp only [ofUInt64, toNat, UInt64.toNat_toUInt8, UInt64.toNat_shiftRight, Nat.shiftRight_eq_div_pow]
  simp
  omega

theorem toUInt32?_ofUInt32 (n : UInt32) : toUInt32? (ofUInt32 n) = some n := by
  have h : UInt32.ofNat (toNat (ofUInt32 n)) = n := by rw [toNat_ofUInt32, UInt32.ofNat_toNat]
  exact congrArg some h

theorem split?_append {n : Nat} {front rest : Bytes} (h : front.length = n) :
    split? n (front ++ rest) = some (front, rest) := by
  have hle : n ≤ (front ++ rest).length := by
    rw [List.length_append]
    omega
  rw [split?, if_pos hle, List.splitAt_eq, List.take_left' h, List.drop_left' h]

theorem readUInt64_append (n : UInt64) (rest : Bytes) :
    readUInt64 (ofUInt64 n ++ rest) = some (n, rest) := by
  rw [readUInt64, split?_append (length_ofUInt64 n), Option.map_some]
  simp only [toNat_ofUInt64, UInt64.ofNat_toNat]

theorem eq_append_of_split? {n : Nat} {bytes front rest : Bytes}
    (h : split? n bytes = some (front, rest)) : bytes = front ++ rest ∧ front.length = n := by
  unfold split? at h
  split at h
  · next hle =>
    rw [List.splitAt_eq] at h
    cases h
    exact ⟨(List.take_append_drop n bytes).symm, List.length_take_of_le hle⟩
  · cases h

/-- As many bytes with the same value are the same bytes. -/
theorem eq_of_toNat_eq {a b : Bytes} (hlength : a.length = b.length) (h : toNat a = toNat b) :
    a = b := by
  induction a generalizing b with
  | nil => exact (List.length_eq_zero_iff.mp hlength.symm).symm
  | cons x a ih =>
    cases b with
    | nil => cases hlength
    | cons y b =>
      have hx := x.toNat_lt
      have hy := y.toNat_lt
      simp only [toNat] at h
      have hfirst : x = y := UInt8.toNat_inj.mp (by omega)
      have hrest : a = b := ih (Nat.succ.inj hlength) (by omega)
      rw [hfirst, hrest]

theorem toNat_lt (bytes : Bytes) : toNat bytes < Nat.pow 256 bytes.length := by
  induction bytes with
  | nil => exact Nat.one_pos
  | cons b rest ih =>
    have hb := b.toNat_lt
    show b.toNat + 256 * toNat rest < Nat.pow 256 rest.length * 256
    omega

theorem eq_append_of_readUInt64 {bytes rest : Bytes} {n : UInt64}
    (h : bytes.readUInt64 = some (n, rest)) : bytes = ofUInt64 n ++ rest := by
  obtain ⟨⟨head, tail⟩, hsplit, heq⟩ := Option.map_eq_some_iff.mp h
  cases heq
  obtain ⟨happend, hlength⟩ := eq_append_of_split? hsplit
  have hlt : toNat head < UInt64.size := by
    have := toNat_lt head
    rw [hlength] at this
    exact this
  have hvalue : toNat (ofUInt64 (UInt64.ofNat (toNat head))) = toNat head := by
    rw [toNat_ofUInt64, UInt64.toNat_ofNat']
    exact Nat.mod_eq_of_lt hlt
  rw [eq_of_toNat_eq (hlength.symm ▸ length_ofUInt64 _) hvalue]
  exact happend

theorem readSized_append {bytes : Bytes} (h : bytes.length < UInt64.size) (rest : Bytes) :
    (bytes.sized ++ rest).readSized = some (bytes, rest) := by
  have hlength : (UInt64.ofNat bytes.length).toNat = bytes.length := by
    rw [UInt64.toNat_ofNat']
    exact Nat.mod_eq_of_lt h
  rw [readSized, sized, List.append_assoc, readUInt64_append]
  exact split?_append hlength.symm

theorem eq_append_of_readSized {bytes data rest : Bytes} (h : bytes.readSized = some (data, rest)) :
    bytes = data.sized ++ rest ∧ data.length < UInt64.size := by
  obtain ⟨⟨n, tail⟩, hread, hsplit⟩ := Option.bind_eq_some_iff.mp h
  obtain ⟨rfl, hlength⟩ := eq_append_of_split? hsplit
  have hsize : UInt64.ofNat data.length = n := by rw [hlength, UInt64.ofNat_toNat]
  refine ⟨?_, hlength ▸ n.toNat_lt⟩
  rw [eq_append_of_readUInt64 hread, sized, hsize, List.append_assoc]

end Bytes

namespace Hash

theorem read_append (h : Hash) (rest : Bytes) : read (h.bytes ++ rest) = some (h, rest) := by
  have hbytes : ofBytes? h.bytes = some h := by rw [ofBytes?, dif_pos h.length_bytes]
  rw [read, Bytes.split?_append h.length_bytes]
  simp only [Option.bind_eq_bind, Option.bind_some, hbytes]
  rfl

theorem eq_append_of_read {bytes rest : Bytes} {h : Hash} (hr : read bytes = some (h, rest)) :
    bytes = h.bytes ++ rest := by
  obtain ⟨⟨head, tail⟩, hsplit, hr⟩ := Option.bind_eq_some_iff.mp hr
  obtain ⟨hash, hhash, hr⟩ := Option.bind_eq_some_iff.mp hr
  cases hr
  unfold ofBytes? at hhash
  split at hhash
  · cases hhash
    exact (Bytes.eq_append_of_split? hsplit).1
  · cases hhash

end Hash

namespace StoredState

theorem decode?_append {s : StoredState} (h : s.state.length < UInt64.size) (rest : Bytes) :
    decode? (s.encode ++ rest) = some s := by
  rw [decode?, encode, List.append_assoc, List.append_assoc, Bytes.readUInt64_append]
  simp only [Option.bind_eq_bind, Option.bind_some, Hash.read_append, Bytes.readSized_append h]
  rfl

theorem decode?_encode {s : StoredState} (h : s.state.length < UInt64.size) :
    decode? s.encode = some s := by
  simpa using decode?_append h []

theorem eq_append_of_decode? {s : StoredState} {bytes : Bytes} (h : decode? bytes = some s) :
    s.state.length < UInt64.size ∧ ∃ rest, bytes = s.encode ++ rest := by
  obtain ⟨⟨height, tail⟩, hheight, h⟩ := Option.bind_eq_some_iff.mp h
  obtain ⟨⟨hash, tail'⟩, hhash, h⟩ := Option.bind_eq_some_iff.mp h
  obtain ⟨⟨state, rest⟩, hstate, h⟩ := Option.bind_eq_some_iff.mp h
  cases h
  obtain ⟨hsized, hlength⟩ := Bytes.eq_append_of_readSized hstate
  refine ⟨hlength, rest, ?_⟩
  rw [Bytes.eq_append_of_readUInt64 hheight, Hash.eq_append_of_read hhash, hsized, encode]
  simp only [List.append_assoc]

end StoredState

namespace UndoRecord

theorem decode?_append {r : UndoRecord} (h : r.undo.length < UInt64.size) (rest : Bytes) :
    decode? (r.encode ++ rest) = some r := by
  rw [decode?, encode, List.append_assoc, Hash.read_append]
  simp only [Option.bind_eq_bind, Option.bind_some, Bytes.readSized_append h]
  rfl

theorem decode?_encode {r : UndoRecord} (h : r.undo.length < UInt64.size) :
    decode? r.encode = some r := by
  simpa using decode?_append h []

theorem eq_append_of_decode? {r : UndoRecord} {bytes : Bytes} (h : decode? bytes = some r) :
    r.undo.length < UInt64.size ∧ ∃ rest, bytes = r.encode ++ rest := by
  obtain ⟨⟨parent, tail⟩, hparent, h⟩ := Option.bind_eq_some_iff.mp h
  obtain ⟨⟨undo, rest⟩, hundo, h⟩ := Option.bind_eq_some_iff.mp h
  cases h
  obtain ⟨hsized, hlength⟩ := Bytes.eq_append_of_readSized hundo
  refine ⟨hlength, rest, ?_⟩
  rw [Hash.eq_append_of_read hparent, hsized, encode, List.append_assoc]

end UndoRecord

end ChainFollower
