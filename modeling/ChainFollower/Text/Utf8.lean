import ChainFollower.Bytes

namespace ChainFollower

namespace Utf8

def encodeChars (cs : List Char) : Bytes := cs.flatMap String.utf8EncodeChar

def encode (s : String) : Bytes := encodeChars s.toList

inductive Fault
  /-- The `length` bytes from `index` begin no character. -/
  | invalid (length index : Nat)
  /-- The text ends inside the character that begins at `index`. -/
  | incomplete (index : Nat)
  deriving DecidableEq, Repr

def Fault.message : Fault → String
  | .invalid length index =>
    "invalid utf-8 sequence of " ++ toString length ++ " bytes from index " ++ toString index
  | .incomplete index => "incomplete utf-8 byte sequence from index " ++ toString index

/-- Whether `b` may follow the first byte of a character. -/
def isTail (b : UInt8) : Bool := 0x80 ≤ b && b ≤ 0xBF

/-- The six bits a following byte carries. -/
def tailBits (b : UInt8) : Nat := b.toNat % 64

/-- Which second bytes a three-byte character may have: no long forms and no surrogates. -/
def isSecondOfThree (a b : UInt8) : Bool :=
  if a == 0xE0 then 0xA0 ≤ b && b ≤ 0xBF
  else if a == 0xED then 0x80 ≤ b && b ≤ 0x9F
  else isTail b

/-- Which second bytes a four-byte character may have: no long forms, nothing above U+10FFFF. -/
def isSecondOfFour (a b : UInt8) : Bool :=
  if a == 0xF0 then 0x90 ≤ b && b ≤ 0xBF
  else if a == 0xF4 then 0x80 ≤ b && b ≤ 0x8F
  else isTail b

/-- The characters of `bytes`, whose first byte stands at index `i` of the whole text. -/
def decodeFrom (i : Nat) : Bytes → Except Fault (List Char)
  | [] => .ok []
  | a :: r =>
    if a < 0x80 then
      (decodeFrom (i + 1) r).map (Char.ofNat a.toNat :: ·)
    else if 0xC2 ≤ a && a ≤ 0xDF then
      match r with
      | [] => .error (.incomplete i)
      | b :: r =>
        if isTail b then
          (decodeFrom (i + 2) r).map (Char.ofNat (a.toNat % 32 * 64 + tailBits b) :: ·)
        else .error (.invalid 1 i)
    else if 0xE0 ≤ a && a ≤ 0xEF then
      match r with
      | [] => .error (.incomplete i)
      | b :: r =>
        if isSecondOfThree a b then
          match r with
          | [] => .error (.incomplete i)
          | c :: r =>
            if isTail c then
              (decodeFrom (i + 3) r).map
                (Char.ofNat ((a.toNat % 16 * 64 + tailBits b) * 64 + tailBits c) :: ·)
            else .error (.invalid 2 i)
        else .error (.invalid 1 i)
    else if 0xF0 ≤ a && a ≤ 0xF4 then
      match r with
      | [] => .error (.incomplete i)
      | b :: r =>
        if isSecondOfFour a b then
          match r with
          | [] => .error (.incomplete i)
          | c :: r =>
            if isTail c then
              match r with
              | [] => .error (.incomplete i)
              | d :: r =>
                if isTail d then
                  (decodeFrom (i + 4) r).map
                    (Char.ofNat (((a.toNat % 8 * 64 + tailBits b) * 64 + tailBits c) * 64
                      + tailBits d) :: ·)
                else .error (.invalid 3 i)
            else .error (.invalid 2 i)
        else .error (.invalid 1 i)
    else .error (.invalid 1 i)

def decode (bytes : Bytes) : Except Fault String := (decodeFrom 0 bytes).map String.ofList

def decode? (bytes : Bytes) : Option String := (decode bytes).toOption

end Utf8

end ChainFollower
