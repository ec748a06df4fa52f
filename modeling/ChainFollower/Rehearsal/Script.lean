import ChainFollower.Game.Buffered

namespace ChainFollower

namespace Rehearsal

/-- What a scripted call writes into a buffer; it may claim to have written more or less. -/
structure Output where
  data : Bytes
  claimed : Option Nat
  deriving DecidableEq, Repr

def Output.length (o : Output) : Nat := o.claimed.getD o.data.length

/-- What a scripted call does: it asks for larger buffers, or gives results. -/
structure Cue where
  required : Option Nat
  id : Output
  name : Output
  version : Output
  state : Output
  undo : Output
  hash : Bytes
  height : UInt64
  deriving DecidableEq, Repr

def Cue.empty : Cue :=
  let nothing : Output := ⟨[], none⟩
  ⟨none, nothing, nothing, nothing, nothing, nothing, [], 0⟩

def Cue.status {α : Type} (c : Cue) (written : α) : CallStatus α :=
  match c.required with
  | some n => .tooSmall n
  | none => .complete written

/-- A call with the sizes of its buffers. -/
inductive Seen
  | names (id name version : Nat)
  | initial (network : Int) (state hash : Nat)
  | forward (network : Int) (before : Bytes) (block : String) (state undo : Nat)
  | backward (network : Int) (after : Bytes) (block : String) (undo : Bytes) (state : Nat)
  deriving DecidableEq, Repr

/-- What is left for a game over buffers to do, and how it was called. -/
structure Script where
  /-- What the next calls do. -/
  cues : List Cue
  /-- The calls so far, the last first. -/
  seen : List Seen

namespace Script

def next (s : Script) (call : Seen) : Cue × Script :=
  (s.cues.headD .empty, ⟨s.cues.drop 1, call :: s.seen⟩)

def calls : BufferedGame Script where
  names b s :=
    let (c, s) := s.next (.names b.id.size b.name.size b.version.size)
    ((c.status ⟨c.id.length, c.name.length, c.version.length⟩,
      ⟨b.id.write c.id.data, b.name.write c.name.data, b.version.write c.version.data⟩), s)
  initial network b s :=
    let (c, s) := s.next (.initial network b.state.size b.hash.size)
    ((c.status ⟨c.state.length, c.height⟩,
      ⟨b.state.write c.state.data, b.hash.write c.hash⟩), s)
  forward network before block b s :=
    let (c, s) := s.next (.forward network before block b.state.size b.undo.size)
    ((c.status ⟨c.state.length, c.undo.length⟩,
      ⟨b.state.write c.state.data, b.undo.write c.undo.data⟩), s)
  backward network after block undo b s :=
    let (c, s) := s.next (.backward network after block undo b.size)
    ((c.status c.state.length, b.write c.state.data), s)

def game : Game (Buffered Script) := Buffered.game calls

end Script

end Rehearsal

end ChainFollower
