import ChainFollower.Text.Hex
import ChainFollower.Text.Quoted
import ChainFollower.Text.Utf8

namespace ChainFollower

/-- A block hash is written as 64 hexadecimal digits and ordered as an unsigned number with the most
significant byte first. -/
structure Hash where
  bytes : Bytes
  length_bytes : bytes.length = 32
  deriving DecidableEq

namespace Hash

def zero : Hash := ⟨Bytes.zeros 32, by simp⟩

instance : Inhabited Hash := ⟨zero⟩

def isZero (h : Hash) : Bool := h.bytes.all (· == 0)

/-- The bytes of two hashes at the first place where they differ decide. -/
def compareBytes : Bytes → Bytes → Ordering
  | [], [] => .eq
  | [], _ => .lt
  | _, [] => .gt
  | a :: r, b :: s => if a < b then .lt else if b < a then .gt else compareBytes r s

instance : Ord Hash := ⟨fun a b => compareBytes a.bytes b.bytes⟩

/-- Exactly 32 bytes. -/
def ofBytes? (bytes : Bytes) : Option Hash :=
  if h : bytes.length = 32 then some ⟨bytes, h⟩ else none

def toHex (h : Hash) : String := Hex.ofBytes h.bytes

instance : ToString Hash := ⟨toHex⟩

inductive ParseError
  | length (found : Nat)
  /-- The byte at `index` of the text is the code of no digit. -/
  | digit (code : UInt8) (index : Nat)
  deriving DecidableEq, Repr

def ParseError.message : ParseError → String
  | .length found => "expected 64 hex digits, got " ++ toString found
  | .digit code index =>
    "invalid hex character " ++ Quoted.char (Char.ofNat code.toNat) ++ " at position "
      ++ toString index

/-- Pairs of digits as bytes, of a text whose first code stands at index `i`; the first code that
is no digit is reported. -/
def pairs (i : Nat) : Bytes → Except ParseError Bytes
  | [] => .ok []
  | [a] => .error (.digit a i)
  | a :: b :: r =>
    match Hex.value? a with
    | none => .error (.digit a i)
    | some high =>
      match Hex.value? b with
      | none => .error (.digit b (i + 1))
      | some low => (pairs (i + 2) r).map (UInt8.ofNat (16 * high + low) :: ·)

theorem length_of_pairs {i : Nat} {codes bytes : Bytes} (h : pairs i codes = .ok bytes) :
    2 * bytes.length = codes.length := by
  fun_induction pairs i codes generalizing bytes with
  | case1 => cases h; rfl
  | case2 => cases h
  | case3 => cases h
  | case4 => cases h
  | case5 i a b r high _ low _ ih =>
    cases hr : pairs (i + 2) r with
    | error e => rw [hr] at h; cases h
    | ok rest =>
      rw [hr] at h
      cases h
      have := ih hr
      simp only [List.length_cons]
      omega

/-- The length is counted in UTF-8 bytes and looked at first. -/
def ofHex (text : String) : Except ParseError Hash :=
  let codes := Utf8.encode text
  if hl : codes.length = 64 then
    match hp : pairs 0 codes with
    | .error e => .error e
    | .ok bytes => .ok ⟨bytes, by have := length_of_pairs hp; omega⟩
  else .error (.length codes.length)

def ofHex? (text : String) : Option Hash := (ofHex text).toOption

end Hash

end ChainFollower
