import ChainFollower.Binary64.Basic

namespace ChainFollower

namespace Json

/-- Whole numbers from `-2 ^ 63` to below `2 ^ 64` are kept exactly; every other number is binary. -/
inductive Number
  | int (n : Int)
  | float (x : Binary64)
  deriving DecidableEq, Repr

end Json

/-- An object that has been read has its fields in ascending order of their keys, each key once; one that is
only written keeps the order it is given. -/
inductive Json
  | null
  | bool (b : Bool)
  | num (n : Json.Number)
  | str (s : String)
  | arr (items : List Json)
  | obj (fields : List (String × Json))
  deriving Repr

namespace Json

instance : Inhabited Json := ⟨.null⟩

/-- Puts a field in its place; a field of the same key gives way. -/
def insertField (key : String) (value : Json) : List (String × Json) → List (String × Json)
  | [] => [(key, value)]
  | (k, v) :: r =>
    if key < k then (key, value) :: (k, v) :: r
    else if key = k then (key, value) :: r
    else (k, v) :: insertField key value r

/-- An object of these fields; of two with one key the later counts. -/
def ofFields (fields : List (String × Json)) : Json :=
  .obj (fields.foldl (fun acc (k, v) => insertField k v acc) [])

def field? (key : String) : Json → Option Json
  | .obj fields => fields.lookup key
  | _ => none

def str? : Json → Option String
  | .str s => some s
  | _ => none

def bool? : Json → Option Bool
  | .bool b => some b
  | _ => none

/-- A whole number that is not negative. -/
def nat? : Json → Option Nat
  | .num (.int n) => if 0 ≤ n then some n.toNat else none
  | _ => none

def list? : Json → Option (List Json)
  | .arr items => some items
  | _ => none

def ofNat (n : Nat) : Json := .num (.int n)

def ofUInt64 (n : UInt64) : Json := .num (.int n.toNat)

def ofUInt32 (n : UInt32) : Json := .num (.int n.toNat)

end Json

end ChainFollower
