import ChainFollower.Json.Basic
import ChainFollower.Text.Hex
import ChainFollower.Text.Utf8

namespace ChainFollower

namespace Json

def isSpace (b : UInt8) : Bool := b == 0x20 || b == 0x0A || b == 0x0D || b == 0x09

def skipSpace (bytes : Bytes) : Bytes := bytes.dropWhile isSpace

/-- The rest after `word`, if the bytes begin with it. -/
def expect? : Bytes → Bytes → Option Bytes
  | [], rest => some rest
  | _ :: _, [] => none
  | w :: word, b :: rest => if w = b then expect? word rest else none

def hexFour? (a b c d : UInt8) : Option Nat := do
  let a ← Hex.value? a
  let b ← Hex.value? b
  let c ← Hex.value? c
  let d ← Hex.value? d
  return ((a * 16 + b) * 16 + c) * 16 + d

/-- The byte a one-letter escape stands for. -/
def simpleEscape? (b : UInt8) : Option UInt8 :=
  if b = 0x22 ∨ b = 0x5C ∨ b = 0x2F then some b
  else if b = 0x62 then some 0x08
  else if b = 0x66 then some 0x0C
  else if b = 0x6E then some 0x0A
  else if b = 0x72 then some 0x0D
  else if b = 0x74 then some 0x09
  else none

/-- The contents of a string up to its closing quote, with escapes resolved, and the rest. -/
def stringBody : Bytes → Option (Bytes × Bytes)
  | [] => none
  | a :: r =>
    if a = 0x22 then some ([], r)
    else if a < 0x20 then none
    else if a = 0x5C then
      match r with
      | [] => none
      | e :: r =>
        if e = 0x75 then
          match r with
          | a :: b :: c :: d :: r =>
            match hexFour? a b c d with
            | none => none
            | some n =>
              if 0xDC00 ≤ n ∧ n ≤ 0xDFFF then none
              else if 0xD800 ≤ n ∧ n ≤ 0xDBFF then
                match r with
                | s :: u :: a :: b :: c :: d :: r =>
                  if s = 0x5C ∧ u = 0x75 then
                    match hexFour? a b c d with
                    | none => none
                    | some m =>
                      if 0xDC00 ≤ m ∧ m ≤ 0xDFFF then
                        (stringBody r).map fun (body, rest) =>
                          (String.utf8EncodeChar
                            (Char.ofNat ((n - 0xD800) * 0x400 + (m - 0xDC00) + 0x10000)) ++ body,
                            rest)
                      else none
                  else none
                | _ => none
              else
                (stringBody r).map fun (body, rest) =>
                  (String.utf8EncodeChar (Char.ofNat n) ++ body, rest)
          | _ => none
        else
          match simpleEscape? e with
          | none => none
          | some b => (stringBody r).map fun (body, rest) => (b :: body, rest)
    else (stringBody r).map fun (body, rest) => (a :: body, rest)

/-- A string after its opening quote. -/
def string? (bytes : Bytes) : Option (String × Bytes) := do
  let (body, rest) ← stringBody bytes
  let s ← Utf8.decode? body
  return (s, rest)

/-- A number as it is written: digits of the whole part and of the fraction, and the exponent. -/
structure Literal where
  negative : Bool
  whole : List Nat
  fraction : List Nat
  exponent : Int
  /-- Neither point nor exponent is written. -/
  integral : Bool

def isDigit (b : UInt8) : Bool := 0x30 ≤ b && b ≤ 0x39

def digitValue (b : UInt8) : Nat := b.toNat - 48

def takeDigits (bytes : Bytes) : List Nat := (bytes.takeWhile isDigit).map digitValue

def dropDigits (bytes : Bytes) : Bytes := bytes.dropWhile isDigit

def ofDigits (ds : List Nat) : Nat := ds.foldl (fun n d => 10 * n + d) 0

/-- A written exponent, if the bytes begin with one, and the rest. -/
def exponent? (bytes : Bytes) : Option (Option Int × Bytes) :=
  match bytes with
  | [] => some (none, [])
  | e :: r =>
    if e = 0x65 ∨ e = 0x45 then
      let (minus, r) := match r with
        | s :: t => if s = 0x2D then (true, t) else if s = 0x2B then (false, t) else (false, r)
        | [] => (false, r)
      match takeDigits r with
      | [] => none
      | ds => some (some (if minus then -(ofDigits ds : Int) else ofDigits ds), dropDigits r)
    else some (none, bytes)

/-- A number whose sign has been read. -/
def literal? (negative : Bool) (bytes : Bytes) : Option (Literal × Bytes) :=
  let whole := takeDigits bytes
  let rest := dropDigits bytes
  match whole with
  | [] => none
  | 0 :: _ :: _ => none
  | _ =>
    match rest with
    | p :: r =>
      if p = 0x2E then
        match takeDigits r with
        | [] => none
        | fraction =>
          (exponent? (dropDigits r)).map fun (e, rest) =>
            (⟨negative, whole, fraction, e.getD 0, false⟩, rest)
      else
        (exponent? rest).map fun (e, rest) => (⟨negative, whole, [], e.getD 0, e.isNone⟩, rest)
    | [] => some (⟨negative, whole, [], 0, true⟩, [])

/-- Digits taken into the significand as long as it stays below `2 ^ 64`: the significand, how many
were taken, and how many were not. -/
def accumulate (n : Nat) : List Nat → Nat × Nat × Nat
  | [] => (n, 0, 0)
  | d :: ds =>
    if 10 * n + d < UInt64.size then
      let (n, taken, left) := accumulate (10 * n + d) ds
      (n, taken + 1, left)
    else (n, 0, ds.length + 1)

/-- The number a literal stands for; none when it lies beyond the largest. -/
def Literal.value? (l : Literal) : Option Number :=
  let (n, _, left) := accumulate 0 l.whole
  if l.integral ∧ left = 0 then
    if !l.negative then some (.int n)
    else if n = 0 ∨ UInt64.size / 2 < n then some (.float (Binary64.ofNat true n))
    else some (.int (-(n : Int)))
  else
    let (n, taken, _) := accumulate n l.fraction
    (Binary64.ofDecimal l.negative n (left - taken + l.exponent)).map .float

/-- A number from its first byte on. -/
def number? (bytes : Bytes) : Option (Number × Bytes) := do
  let (l, rest) ← match bytes with
    | b :: r => if b = 0x2D then literal? true r else literal? false bytes
    | [] => none
  let n ← l.value?
  return (n, rest)

mutual

/-- The document at the start of the bytes and the rest. `depth` more arrays and objects may open,
and `fuel` bounds the steps. -/
def value? : Nat → Nat → Bytes → Option (Json × Bytes)
  | 0, _, _ => none
  | fuel + 1, depth, bytes =>
    match skipSpace bytes with
    | [] => none
    | b :: r =>
      if b = 0x6E then (expect? [0x75, 0x6C, 0x6C] r).map (.null, ·)
      else if b = 0x74 then (expect? [0x72, 0x75, 0x65] r).map (.bool true, ·)
      else if b = 0x66 then (expect? [0x61, 0x6C, 0x73, 0x65] r).map (.bool false, ·)
      else if b = 0x22 then (string? r).map fun (s, rest) => (.str s, rest)
      else if b = 0x5B then
        match depth with
        | 0 => none
        | depth + 1 =>
          match skipSpace r with
          | [] => none
          | c :: rest =>
            if c = 0x5D then some (.arr [], rest)
            else (items? fuel depth r).map fun (xs, rest) => (.arr xs, rest)
      else if b = 0x7B then
        match depth with
        | 0 => none
        | depth + 1 =>
          match skipSpace r with
          | [] => none
          | c :: rest =>
            if c = 0x7D then some (.obj [], rest)
            else (members? fuel depth r).map fun (fields, rest) => (ofFields fields, rest)
      else (number? (b :: r)).map fun (n, rest) => (.num n, rest)

/-- One or more items and the closing bracket. -/
def items? : Nat → Nat → Bytes → Option (List Json × Bytes)
  | 0, _, _ => none
  | fuel + 1, depth, bytes =>
    match value? fuel depth bytes with
    | none => none
    | some (x, r) =>
      match skipSpace r with
      | [] => none
      | b :: r =>
        if b = 0x2C then (items? fuel depth r).map fun (xs, rest) => (x :: xs, rest)
        else if b = 0x5D then some ([x], r)
        else none

/-- One or more fields and the closing brace. -/
def members? : Nat → Nat → Bytes → Option (List (String × Json) × Bytes)
  | 0, _, _ => none
  | fuel + 1, depth, bytes =>
    match skipSpace bytes with
    | [] => none
    | b :: r =>
      if b = 0x22 then
        match string? r with
        | none => none
        | some (key, r) =>
          match skipSpace r with
          | [] => none
          | b :: r =>
            if b = 0x3A then
              match value? fuel depth r with
              | none => none
              | some (v, r) =>
                match skipSpace r with
                | [] => none
                | b :: r =>
                  if b = 0x2C then
                    (members? fuel depth r).map fun (fields, rest) => ((key, v) :: fields, rest)
                  else if b = 0x7D then some ([(key, v)], r)
                  else none
            else none
      else none

end

/-- How many arrays and objects may stand inside each other. -/
def maxDepth : Nat := 127

/-- The whole text as one document. The grammar is strict: no blanks inside tokens, no leading zeros, no comma
before a closing bracket, no control characters in strings, and surrogate escapes only in pairs. -/
def parse? (bytes : Bytes) : Option Json :=
  match value? (2 * bytes.length + 2) maxDepth bytes with
  | some (j, rest) => if skipSpace rest = [] then some j else none
  | none => none

def ofText? (text : String) : Option Json := parse? (Utf8.encode text)

end Json

end ChainFollower
