namespace ChainFollower

/-- A finite binary floating-point number of 53 bits. Results are rounded to the nearest number, ties to the
even mantissa. -/
structure Binary64 where
  negative : Bool
  mantissa : Nat
  exponent : Int
  deriving DecidableEq, Repr

namespace Binary64

def zero : Binary64 := ⟨false, 0, -1074⟩

def isZero (x : Binary64) : Bool := x.mantissa == 0

/-- `n / d` rounded to the nearest whole number, ties to even. -/
def divNearest (n d : Nat) : Nat :=
  let q := n / d
  let r := n % d
  if 2 * r < d then q
  else if d < 2 * r then q + 1
  else if q % 2 = 0 then q else q + 1

/-- `n / d` as a numerator and a denominator after division by `2 ^ e`. -/
def scale (n d : Nat) (e : Int) : Nat × Nat :=
  if 0 ≤ e then (n, d * Nat.pow 2 e.toNat) else (n * Nat.pow 2 (-e).toNat, d)

/-- The exponent of the last bit kept of `n / d`: 53 significant bits, and fewer near zero. -/
def lastBit (n d : Nat) : Int :=
  let e : Int := (n.log2 : Int) - (d.log2 : Int) - 52
  let s := scale n d e
  let e := if s.1 < s.2 * Nat.pow 2 52 then e - 1 else e
  max e (-1074)

/-- The number nearest to `n / d`; none when it lies beyond the largest. -/
def ofRatio (negative : Bool) (n d : Nat) : Option Binary64 :=
  if n = 0 then some ⟨negative, 0, -1074⟩
  else
    let e := lastBit n d
    let s := scale n d e
    let m := divNearest s.1 s.2
    let x : Binary64 :=
      if m = Nat.pow 2 53 then ⟨negative, Nat.pow 2 52, e + 1⟩ else ⟨negative, m, e⟩
    if 971 < x.exponent then none else some x

/-- A whole number below `2 ^ 1023`. -/
def ofNat (negative : Bool) (n : Nat) : Binary64 :=
  (ofRatio negative n 1).getD ⟨negative, Nat.pow 2 53 - 1, 971⟩

/-- The magnitude as a fraction. -/
def ratio (x : Binary64) : Nat × Nat :=
  if 0 ≤ x.exponent then (x.mantissa * Nat.pow 2 x.exponent.toNat, 1)
  else (x.mantissa, Nat.pow 2 (-x.exponent).toNat)

def mul? (x y : Binary64) : Option Binary64 :=
  let a := x.ratio
  let b := y.ratio
  ofRatio (x.negative != y.negative) (a.1 * b.1) (a.2 * b.2)

/-- The quotient by a number that is not zero. -/
def div? (x y : Binary64) : Option Binary64 :=
  let a := x.ratio
  let b := y.ratio
  if b.1 = 0 then none else ofRatio (x.negative != y.negative) (a.1 * b.2) (a.2 * b.1)

/-- The number nearest to a power of ten up to 308. -/
def powTen (n : Nat) : Binary64 := ofNat false (Nat.pow 10 n)

/-- `x` times a power of ten in steps of numbers: one product or quotient when the power itself is
a number, and quotients by `10 ^ 308` before that when it is too small. `n` bounds the quotients. -/
def shiftTen (n : Nat) (x : Binary64) (exponent : Int) : Option Binary64 :=
  if exponent.natAbs ≤ 308 then
    if 0 ≤ exponent then x.mul? (powTen exponent.toNat) else x.div? (powTen (-exponent).toNat)
  else if x.isZero then some x
  else if 0 ≤ exponent then none
  else match n with
    | 0 => some zero
    | n + 1 => (x.div? (powTen 308)).bind fun y => y.shiftTen n (exponent + 308)

/-- The number that the digits `significand` and a power of ten read as: the significand is rounded
first, then scaled. None when it lies beyond the largest number. -/
def ofDecimal (negative : Bool) (significand : Nat) (exponent : Int) : Option Binary64 :=
  ((ofNat false significand).shiftTen 4 exponent).map fun x => { x with negative }

end Binary64

end ChainFollower
