import ChainFollower.Bytes

namespace ChainFollower

namespace Hex

def digit (n : Nat) : Char :=
  Char.ofNat (if n < 10 then 48 + n else 87 + n)

def ofByte (b : UInt8) : List Char := [digit (b.toNat / 16), digit (b.toNat % 16)]

/-- Two lower-case digits a byte. -/
def ofBytes (bytes : Bytes) : String := String.ofList (bytes.flatMap ofByte)

/-- The value of the ASCII code of a digit of either case. -/
def value? (code : UInt8) : Option Nat :=
  let n := code.toNat
  if 48 ≤ n ∧ n ≤ 57 then some (n - 48)
  else if 97 ≤ n ∧ n ≤ 102 then some (n - 87)
  else if 65 ≤ n ∧ n ≤ 70 then some (n - 55)
  else none

/-- The bytes that pairs of digits denote. -/
def bytes? : Bytes → Option Bytes
  | [] => some []
  | [_] => none
  | a :: b :: r => do
    let high ← value? a
    let low ← value? b
    return UInt8.ofNat (16 * high + low) :: (← bytes? r)

/-- The shortest lower-case digits of a number. -/
def ofNat (n : Nat) : String := String.ofList (Nat.toDigits 16 n)

end Hex

end ChainFollower
