import ChainFollower.Block.Document

namespace ChainFollower

/-- The state at the local tip. Records are written as fixed-width little-endian numbers, hashes as their 32
bytes, byte strings behind their length in eight bytes. Bytes after a record are not looked at. -/
structure StoredState where
  tip : Tip
  state : Bytes
  deriving DecidableEq

/-- What reverses one block: the block before it and the game's own undo data. -/
structure UndoRecord where
  parent : Hash
  undo : Bytes
  deriving DecidableEq

/-- A new current state, and the undo record of its tip when a block was applied. -/
structure Commit where
  tip : Tip
  state : Bytes
  undo : Option UndoRecord
  deriving DecidableEq

namespace Commit

def forward (tip : Tip) (state : Bytes) (parent : Hash) (undo : Bytes) : Commit :=
  ⟨tip, state, some ⟨parent, undo⟩⟩

def withoutUndo (tip : Tip) (state : Bytes) : Commit := ⟨tip, state, none⟩

def stored (c : Commit) : StoredState := ⟨c.tip, c.state⟩

end Commit

/-- A byte string behind its length. -/
def Bytes.sized (bytes : Bytes) : Bytes := Bytes.ofUInt64 (UInt64.ofNat bytes.length) ++ bytes

def Bytes.readSized (bytes : Bytes) : Option (Bytes × Bytes) := do
  let (n, rest) ← bytes.readUInt64
  rest.split? n.toNat

def Hash.read (bytes : Bytes) : Option (Hash × Bytes) := do
  let (head, rest) ← bytes.split? 32
  return (← Hash.ofBytes? head, rest)

namespace StoredState

def encode (s : StoredState) : Bytes :=
  Bytes.ofUInt64 s.tip.height ++ s.tip.hash.bytes ++ s.state.sized

/-- None when the bytes end inside the record. -/
def decode? (bytes : Bytes) : Option StoredState := do
  let (height, rest) ← bytes.readUInt64
  let (hash, rest) ← Hash.read rest
  let (state, _) ← rest.readSized
  return ⟨⟨height, hash⟩, state⟩

def toJson (s : StoredState) : Json :=
  .obj [("tip", s.tip.toJson), ("state", s.state.toJson)]

def codec : Json.Codec StoredState :=
  let shape : Json.Codec.Shape (Option Tip × Option Bytes) StoredState :=
    { name := "StoredState"
      empty := (none, none)
      slots := [.of "tip" Tip.codec Prod.fst (fun s a => (some a, s.2)),
        .of "state" Json.Codec.bytes Prod.snd (fun s a => (s.1, some a))]
      whole := fun (tip, state) => do return ⟨← tip, ← state⟩ }
  shape.codec

end StoredState

namespace UndoRecord

def encode (r : UndoRecord) : Bytes := r.parent.bytes ++ r.undo.sized

def decode? (bytes : Bytes) : Option UndoRecord := do
  let (parent, rest) ← Hash.read bytes
  let (undo, _) ← rest.readSized
  return ⟨parent, undo⟩

def toJson (r : UndoRecord) : Json :=
  .obj [("parent", r.parent.toJson), ("undo", r.undo.toJson)]

def codec : Json.Codec UndoRecord :=
  let shape : Json.Codec.Shape (Option Hash × Option Bytes) UndoRecord :=
    { name := "UndoRecord"
      empty := (none, none)
      slots := [.of "parent" Json.Codec.hash Prod.fst (fun s a => (some a, s.2)),
        .of "undo" Json.Codec.bytes Prod.snd (fun s a => (s.1, some a))]
      whole := fun (parent, undo) => do return ⟨← parent, ← undo⟩ }
  shape.codec

end UndoRecord

end ChainFollower
