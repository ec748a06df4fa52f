import ChainFollower.Store.Basic

namespace ChainFollower

def Tip.before (a b : Tip) : Bool :=
  a.height < b.height || (a.height == b.height && compare a.hash b.hash == .lt)

/-- The current state and a journal of undo records in ascending order of height and hash. -/
structure MemoryStore where
  current : Option StoredState
  journal : List (Tip × UndoRecord)
  deriving DecidableEq

namespace MemoryStore

def empty : MemoryStore := ⟨none, []⟩

/-- Puts a record in its place; a record of the same block gives way. -/
def insert (tip : Tip) (record : UndoRecord) : List (Tip × UndoRecord) → List (Tip × UndoRecord)
  | [] => [(tip, record)]
  | entry :: rest =>
    if tip.before entry.1 then (tip, record) :: entry :: rest
    else if tip = entry.1 then (tip, record) :: rest
    else entry :: insert tip record rest

def commit (c : Commit) (s : MemoryStore) : MemoryStore where
  current := some c.stored
  journal := match c.undo with
    | some record => insert c.tip record s.journal
    | none => s.journal

def undo? (tip : Tip) (s : MemoryStore) : Option UndoRecord := s.journal.lookup tip

/-- How many records lie below a height. In the order of the journal they are the ones in front of the place
that the height and the hash zero would have. -/
def countBelow (height : UInt64) (s : MemoryStore) : Nat :=
  s.journal.countP fun entry => entry.1.height < height

/-- Without the records that `countBelow` counts. -/
def dropBelow (height : UInt64) (s : MemoryStore) : MemoryStore :=
  { s with journal := s.journal.filter fun entry => height ≤ entry.1.height }

def heights (s : MemoryStore) : List UInt64 := s.journal.map fun entry => entry.1.height

/-- The store, which never fails. -/
def store : Store MemoryStore where
  load s := (.ok s.current, s)
  commit c s := (.ok (), s.commit c)
  undo tip s := (.ok (s.undo? tip), s)
  prune height s := (.ok (s.countBelow height), s.dropBelow height)
  heights s := (.ok s.heights, s)

end MemoryStore

end ChainFollower
