import ChainFollower.Sync.Follower

namespace ChainFollower

/-- The calls that can be made to fail. -/
inductive Target
  | info
  | hash
  | block
  | load
  | commit
  | undo
  | prune
  deriving DecidableEq, Repr

namespace Target

def all : List Target := [info, hash, block, load, commit, undo, prune]

def name : Target → String
  | info => "info"
  | hash => "hash"
  | block => "data"
  | load => "current"
  | commit => "commit"
  | undo => "undo"
  | prune => "prune"

def ofName? (s : String) : Option Target := all.find? fun t => t.name == s

/-- What a question to the chain asks for. -/
def ofQuery : Query → Target
  | .info => info
  | .hashAt _ => hash
  | .block _ _ => block

end Target

/-- After `skip` calls of its kind, `left` calls fail. -/
structure Fault where
  target : Target
  skip : Nat
  left : Nat
  deriving DecidableEq, Repr

/-- Whether a call fails, and the faults after it. Of the faults of its kind with failures left the
first decides. -/
def Fault.strike (target : Target) : List Fault → Bool × List Fault
  | [] => (false, [])
  | f :: rest =>
    if f.target = target ∧ 0 < f.left then
      if 0 < f.skip then (false, { f with skip := f.skip - 1 } :: rest)
      else (true, { f with left := f.left - 1 } :: rest)
    else
      let (fails, rest) := strike target rest
      (fails, f :: rest)

end ChainFollower
