import ChainFollower.Store.File
import ChainFollower.Proofs.Store.Record

namespace ChainFollower

/-- Eight bytes that denote this number, the least significant first. -/
def Bytes.Denotes (bytes : Bytes) (n : Nat) : Prop := bytes.length = 8 ∧ bytes.toNat = n

theorem Bytes.denotes_iff {bytes : Bytes} {n : UInt64} : bytes.Denotes n.toNat ↔ bytes = ofUInt64 n := by
  constructor
  · rintro ⟨hlength, hvalue⟩
    exact eq_of_toNat_eq (hlength.trans (length_ofUInt64 n).symm) (hvalue.trans (toNat_ofUInt64 n).symm)
  · rintro rfl
    exact ⟨length_ofUInt64 n, toNat_ofUInt64 n⟩

theorem Bytes.denotes_length_iff {bytes data : Bytes} (h : data.length < UInt64.size) :
    bytes.Denotes data.length ↔ bytes = ofUInt64 (UInt64.ofNat data.length) := by
  have hlength : (UInt64.ofNat data.length).toNat = data.length := by
    rw [UInt64.toNat_ofNat']
    exact Nat.mod_eq_of_lt h
  rw [← denotes_iff, hlength]

/-- The height, the bytes of the hash, and the state behind its length. -/
def StoredState.Laid (s : StoredState) (bytes : Bytes) : Prop :=
  ∃ height length : Bytes, height.Denotes s.tip.height.toNat ∧ length.Denotes s.state.length ∧
    bytes = height ++ s.tip.hash.bytes ++ (length ++ s.state)

/-- The bytes of the hash, and the undo data behind their length. -/
def UndoRecord.Laid (r : UndoRecord) (bytes : Bytes) : Prop :=
  ∃ length : Bytes, length.Denotes r.undo.length ∧ bytes = r.parent.bytes ++ (length ++ r.undo)

theorem StoredState.laid_iff {s : StoredState} (h : s.state.length < UInt64.size) {bytes : Bytes} :
    s.Laid bytes ↔ bytes = s.encode := by
  constructor
  · rintro ⟨height, length, hheight, hlength, rfl⟩
    rw [Bytes.denotes_iff.mp hheight, (Bytes.denotes_length_iff h).mp hlength]
    rfl
  · rintro rfl
    exact ⟨_, _, Bytes.denotes_iff.mpr rfl, (Bytes.denotes_length_iff h).mpr rfl, rfl⟩

theorem UndoRecord.laid_iff {r : UndoRecord} (h : r.undo.length < UInt64.size) {bytes : Bytes} :
    r.Laid bytes ↔ bytes = r.encode := by
  constructor
  · rintro ⟨length, hlength, rfl⟩
    rw [(Bytes.denotes_length_iff h).mp hlength]
    rfl
  · rintro rfl
    exact ⟨_, (Bytes.denotes_length_iff h).mpr rfl, rfl⟩

/-- A record is read from just the bytes that begin with it. -/
structure Legible {α : Type} (Fits : α → Prop) (encode : α → Bytes) (decode? : Bytes → Option α) :
    Prop where
  append : ∀ a rest, Fits a → decode? (encode a ++ rest) = some a
  exact : ∀ a bytes, decode? bytes = some a → Fits a ∧ ∃ rest, bytes = encode a ++ rest

namespace Legible

variable {α : Type} {Fits : α → Prop} {encode : α → Bytes} {decode? : Bytes → Option α} {a b : α}

/-- No record begins with another one. -/
theorem eq_of_prefix (h : Legible Fits encode decode?) (ha : Fits a) (hb : Fits b)
    (hbegins : encode a <+: encode b) : a = b := by
  obtain ⟨rest, hrest⟩ := hbegins
  have hread := h.append a rest ha
  rw [hrest] at hread
  have hwhole := h.append b [] hb
  rw [List.append_nil] at hwhole
  exact Option.some.inj (hread.symm.trans hwhole)

theorem decode?_of_cut (h : Legible Fits encode decode?) (ha : Fits a) {content : Bytes}
    (hbegins : content <+: encode a) (hne : content ≠ encode a) : decode? content = none := by
  cases hread : decode? content with
  | none => rfl
  | some b =>
    obtain ⟨hb, rest, rfl⟩ := h.exact b content hread
    have hle : encode b <+: encode a := (List.prefix_append (encode b) rest).trans hbegins
    obtain rfl := h.eq_of_prefix hb ha hle
    -- What begins with all of the record is not shorter than the record.
    have hlength := hbegins.length_le
    rw [List.length_append] at hlength
    have hrest : rest = [] := List.length_eq_zero_iff.mp (by omega)
    rw [hrest, List.append_nil] at hne
    exact absurd rfl hne

end Legible

theorem StoredState.legible :
    Legible (fun s : StoredState => s.state.length < UInt64.size) encode decode? where
  append _ rest h := decode?_append h rest
  exact _ _ h := eq_append_of_decode? h

theorem UndoRecord.legible :
    Legible (fun r : UndoRecord => r.undo.length < UInt64.size) encode decode? where
  append _ rest h := decode?_append h rest
  exact _ _ h := eq_append_of_decode? h

namespace FileStore

open FileTree (Path)

variable {α : Type} {Fits : α → Prop} {encode : α → Bytes} {decode? : Bytes → Option α}
  {s : FileStore} {path : Path} {name : String}

/-- What comes of reading records of one kind from a file: all of a record is read, whatever stands
behind it, and with less than all of it the file is corrupted. -/
structure ReadsBack (s : FileStore) (Fits : α → Prop) (encode : α → Bytes) (path : Path)
    (name : String) (read : FileTree → Except StoreError (Option α)) : Prop where
  whole : ∀ t a rest, Fits a → t.node? path = some (.file (encode a ++ rest)) → read t = .ok (some a)
  cut : ∀ t a content, Fits a → content <+: encode a → content ≠ encode a →
    t.node? path = some (.file content) →
    read t = .error (.corrupted (s.label ++ "/" ++ name ++ ": io error: unexpected end of file"))
  apart : ∀ a b, Fits a → Fits b → encode a <+: encode b → a = b

theorem readsBack_readRecord (h : Legible Fits encode decode?) (hreaches : s.reaches name = true) :
    s.ReadsBack Fits encode path name fun t => s.readRecord t path name decode? where
  whole t a rest ha hnode := by
    unfold readRecord
    rw [if_pos hreaches, hnode]
    simp only [h.append a rest ha]
  cut t a content ha hbegins hne hnode := by
    unfold readRecord
    rw [if_pos hreaches, hnode]
    simp only [h.decode?_of_cut ha hbegins hne]
    rfl
  apart _ _ := h.eq_of_prefix

/-- Current states and undo records are read back from files that begin with them, and a file that has
lost its end is always noticed. -/
theorem records_read_back (s : FileStore) (tip : Tip) (hcurrent : s.reaches currentName = true)
    (hundo : s.reaches (undoFolder ++ "/" ++ undoName tip) = true) :
    s.ReadsBack (fun st : StoredState => st.state.length < UInt64.size) StoredState.encode
      s.currentPath currentName s.load ∧
    s.ReadsBack (fun r : UndoRecord => r.undo.length < UInt64.size) UndoRecord.encode
      (s.undoPath tip) (undoFolder ++ "/" ++ undoName tip) (s.undo tip) ∧
    (∀ st : StoredState, st.state.length < UInt64.size → ∀ bytes, st.Laid bytes ↔ bytes = st.encode) ∧
    ∀ r : UndoRecord, r.undo.length < UInt64.size → ∀ bytes, r.Laid bytes ↔ bytes = r.encode :=
  ⟨readsBack_readRecord StoredState.legible hcurrent, readsBack_readRecord UndoRecord.legible hundo,
    fun _ h _ => StoredState.laid_iff h, fun _ h _ => UndoRecord.laid_iff h⟩

/-- Of a state of two bytes the last one is missing, and behind an undo record there is one too many. -/
theorem records_read_back_cut :
    let st : StoredState := ⟨⟨3, .zero⟩, [7, 8]⟩
    let r : UndoRecord := ⟨.zero, [9]⟩
    let s : FileStore := ⟨["d"], "d"⟩
    let t : FileTree := ⟨[(s.currentPath, .file (st.encode.take 49)),
      (s.undoPath st.tip, .file (r.encode ++ [0]))]⟩
    s.load t = .error (.corrupted "d/current.bin: io error: unexpected end of file") ∧
      s.undo st.tip t = .ok (some r) := by
  intro st r s t
  obtain ⟨hload, hundo, _⟩ :=
    records_read_back s st.tip (by decide +kernel) (by decide +kernel)
  have hnode : t.node? (s.undoPath st.tip) = some (.file (r.encode ++ [0])) := by decide +kernel
  exact ⟨hload.cut t st (st.encode.take 49) (by decide) (List.take_prefix 49 _) (by decide) rfl,
    hundo.whole t r [0] (by decide) hnode⟩

end FileStore

end ChainFollower
