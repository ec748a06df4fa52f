import ChainFollower.Bytes

namespace ChainFollower

namespace Decimal

def digit? (c : Char) : Option Nat :=
  if '0' ≤ c ∧ c ≤ '9' then some (c.toNat - 48) else none

/-- The value of a text of digits with the value `n` so far. -/
def valueFrom (n : Nat) : List Char → Option Nat
  | [] => some n
  | c :: r => (digit? c).bind fun d => valueFrom (10 * n + d) r

def digits? : List Char → Option Nat
  | [] => none
  | cs => valueFrom 0 cs

/-- An unsigned number below `bound`; a plus sign may stand in front, and zeros. -/
def unsigned? (bound : Nat) (s : String) : Option Nat :=
  let n? := match s.toList with
    | '+' :: r => digits? r
    | cs => digits? cs
  n?.filter (· < bound)

/-- A signed number of the two's complement range with `bound` negative numbers. -/
def signed? (bound : Nat) (s : String) : Option Int :=
  match s.toList with
  | '-' :: r => ((digits? r).filter (· ≤ bound)).map fun n => -(n : Int)
  | '+' :: r => ((digits? r).filter (· < bound)).map Int.ofNat
  | cs => ((digits? cs).filter (· < bound)).map Int.ofNat

def u64? (s : String) : Option UInt64 := (unsigned? UInt64.size s).map UInt64.ofNat

def u32? (s : String) : Option UInt32 := (unsigned? UInt32.size s).map UInt32.ofNat

def i64? (s : String) : Option Int := signed? (UInt64.size / 2) s

end Decimal

end ChainFollower
