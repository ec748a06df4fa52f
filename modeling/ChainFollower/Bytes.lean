namespace ChainFollower

abbrev Bytes := List UInt8

namespace Bytes

def ofUInt32 (n : UInt32) : Bytes :=
  [n.toUInt8, (n >>> 8).toUInt8, (n >>> 16).toUInt8, (n >>> 24).toUInt8]

def ofUInt64 (n : UInt64) : Bytes :=
  [n.toUInt8, (n >>> 8).toUInt8, (n >>> 16).toUInt8, (n >>> 24).toUInt8,
    (n >>> 32).toUInt8, (n >>> 40).toUInt8, (n >>> 48).toUInt8, (n >>> 56).toUInt8]

/-- The number whose digits to base 256 are `bytes`, least significant first. -/
def toNat : Bytes → Nat
  | [] => 0
  | b :: r => b.toNat + 256 * toNat r

/-- The first `n` bytes and the rest, if there are that many. -/
def split? (n : Nat) (bytes : Bytes) : Option (Bytes × Bytes) :=
  if n ≤ bytes.length then some (bytes.splitAt n) else none

def readUInt64 (bytes : Bytes) : Option (UInt64 × Bytes) :=
  (bytes.split? 8).map fun (head, rest) => (UInt64.ofNat head.toNat, rest)

/-- Exactly four bytes read as one number. -/
def toUInt32? : Bytes → Option UInt32
  | [a, b, c, d] => some (UInt32.ofNat (toNat [a, b, c, d]))
  | _ => none

def zeros (n : Nat) : Bytes := List.replicate n 0

@[simp] theorem length_ofUInt32 (n : UInt32) : (ofUInt32 n).length = 4 := rfl

@[simp] theorem length_ofUInt64 (n : UInt64) : (ofUInt64 n).length = 8 := rfl

@[simp] theorem length_zeros (n : Nat) : (zeros n).length = n := by simp [zeros]

end Bytes

end ChainFollower
