import ChainFollower.Binary64.Basic

namespace ChainFollower

namespace Binary64

/-- Everything between the bounds of `x` rounds to `x`; the bounds do so too when the mantissa is
even. Lower bound, value and upper bound over one denominator. -/
def interval (x : Binary64) : (Nat × Nat × Nat) × Nat :=
  let m := x.mantissa
  let below := if m = Nat.pow 2 52 ∧ -1074 < x.exponent then 4 * m - 1 else 4 * m - 2
  if 2 ≤ x.exponent then
    let k := Nat.pow 2 (x.exponent - 2).toNat
    ((below * k, 4 * m * k, (4 * m + 2) * k), 1)
  else ((below, 4 * m, 4 * m + 2), Nat.pow 2 (2 - x.exponent).toNat)

/-- The largest `p ≤ p + fuel` with `10 ^ p ≤ n / d`, starting from a `p` that satisfies it. -/
def climb (n d : Nat) : Nat → Nat → Nat
  | 0, p => p
  | fuel + 1, p => if d * Nat.pow 10 (p + 1) ≤ n then climb n d fuel (p + 1) else p

/-- The least `j` from `j` on with `d ≤ n * 10 ^ j`. -/
def descend (n d : Nat) : Nat → Nat → Nat
  | 0, j => j
  | fuel + 1, j => if d ≤ n * Nat.pow 10 j then j else descend n d fuel (j + 1)

/-- The decimal exponent of the first digit of `n / d`, which is not zero. -/
def leadingExponent (n d : Nat) : Int :=
  if d ≤ n then climb n d 310 0 else -(descend n d 330 1 : Int)

/-- A decimal: whole digits and the exponent of the last one. -/
structure Digits where
  digits : Nat
  exponent : Int
  deriving Repr

/-- The decimal as a numerator and denominator over `d`. -/
def Digits.over (t : Digits) (d : Nat) : Nat × Nat :=
  if 0 ≤ t.exponent then (t.digits * Nat.pow 10 t.exponent.toNat * d, 1)
  else (t.digits * d, Nat.pow 10 (-t.exponent).toNat)

/-- The decimal of `count` digits that reads back as `x`, if there is one: one of the two neighbours
of `x` on that grid, the nearer one if both do, and the even one at a tie. -/
def candidate (x : Binary64) (lead : Int) (count : Nat) : Option Digits :=
  let ((low, value, high), d) := x.interval
  let e : Int := lead - (count - 1 : Nat)
  let floor := if 0 ≤ e then value / (d * Nat.pow 10 e.toNat) else value * Nat.pow 10 (-e).toNat / d
  let closed := x.mantissa % 2 = 0
  let hits (t : Digits) : Bool :=
    let (n, k) := t.over d
    if closed then low * k ≤ n && n ≤ high * k else low * k < n && n < high * k
  let lower : Digits := ⟨floor, e⟩
  let upper : Digits := ⟨floor + 1, e⟩
  match hits lower, hits upper with
  | false, false => none
  | true, false => some lower
  | false, true => some upper
  | true, true =>
    let (n, k) := lower.over d
    let (m, _) := upper.over d
    let down := value * k - n
    let up := m - value * k
    if down < up then some lower
    else if up < down then some upper
    else if floor % 2 = 0 then some lower else some upper

/-- The first grid with a hit, from `count` digits on. -/
def firstCandidate (x : Binary64) (lead : Int) : Nat → Nat → Option Digits
  | 0, _ => none
  | fuel + 1, count =>
    match x.candidate lead count with
    | some t => some t
    | none => firstCandidate x lead fuel (count + 1)

/-- Trailing zeros moved into the exponent. -/
def Digits.strip : Nat → Digits → Digits
  | 0, t => t
  | fuel + 1, t =>
    if t.digits ≠ 0 ∧ t.digits % 10 = 0 then strip fuel ⟨t.digits / 10, t.exponent + 1⟩ else t

/-- The fewest decimal digits that read back as the number, and of those the nearest to it. -/
def shortest (x : Binary64) : Digits :=
  if x.isZero then ⟨0, 0⟩
  else
    let (n, d) := x.ratio
    let lead := leadingExponent n d
    ((x.firstCandidate lead 17 1).getD ⟨0, 0⟩).strip 20

/-- Positional from `10 ^ -5` up to below `10 ^ 16`, with `.0` after a whole number; otherwise one
digit before the point and a signed exponent. -/
def Digits.text (t : Digits) : String :=
  let ds := Nat.toDigits 10 t.digits
  let point : Int := ds.length + t.exponent
  if t.digits = 0 then "0.0"
  else if -5 < point ∧ point ≤ 16 then
    if 0 ≤ t.exponent then
      String.ofList (ds ++ List.replicate t.exponent.toNat '0') ++ ".0"
    else if 0 < point then
      String.ofList (ds.take point.toNat) ++ "." ++ String.ofList (ds.drop point.toNat)
    else "0." ++ String.ofList (List.replicate (-point).toNat '0' ++ ds)
  else
    let e := point - 1
    let mantissa := match ds with
      | [d] => String.ofList [d]
      | ds => String.ofList (ds.take 1) ++ "." ++ String.ofList (ds.drop 1)
    mantissa ++ "e" ++ (if e < 0 then "-" else "+") ++ toString e.natAbs

def text (x : Binary64) : String := (if x.negative then "-" else "") ++ x.shortest.text

end Binary64

end ChainFollower
