import ChainFollower.Block

namespace ChainFollower

/-- Every game has a channel for either kind of event, numbered on its own and around `2 ^ 32`. -/
structure Channel where
  game : String
  kind : EventKind
  deriving DecidableEq, Repr

/-- The last number on every channel that has had one. -/
structure SequenceTracker where
  last : List (Channel × UInt32)
  deriving Repr

namespace SequenceTracker

def empty : SequenceTracker := ⟨[]⟩

def last? (t : SequenceTracker) (c : Channel) : Option UInt32 := t.last.lookup c

def record (t : SequenceTracker) (c : Channel) (seq : UInt32) : SequenceTracker :=
  ⟨(c, seq) :: t.last.filter fun entry => entry.1 != c⟩

/-- Whether a number fails to follow the last one. The first on a channel follows. -/
def mismatch (t : SequenceTracker) (c : Channel) (seq : UInt32) : Bool :=
  match t.last? c with
  | some last => last + 1 != seq
  | none => false

def annotate (t : SequenceTracker) (c : Channel) (seq : UInt32) : Bool × SequenceTracker :=
  (t.mismatch c seq, t.record c seq)

end SequenceTracker

end ChainFollower
