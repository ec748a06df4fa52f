import ChainFollower.Json.Printer
import ChainFollower.Hash

namespace ChainFollower

namespace Json

/-- What stands where something else was expected. -/
inductive Found
  | null
  | bool (b : Bool)
  | num (n : Number)
  | str (s : String)
  | sequence
  | map

def Found.message : Found → String
  | .null => "null"
  | .bool true => "boolean `true`"
  | .bool false => "boolean `false`"
  | .num (.int n) => "integer `" ++ toString n ++ "`"
  | .num (.float x) => "floating point `" ++ x.text ++ "`"
  | .str s => "string " ++ Quoted.text s
  | .sequence => "sequence"
  | .map => "map"

def found : Json → Found
  | .null => .null
  | .bool b => .bool b
  | .num n => .num n
  | .str s => .str s
  | .arr _ => .sequence
  | .obj _ => .map

inductive Mismatch
  | missingField (name : String)
  | duplicateField (name : String)
  | wrongType (found : Found) (expected : String)
  | wrongValue (found : Found) (expected : String)
  | unknownVariant (name : String) (variants : List String)
  /-- A list ends before its element `count`. -/
  | tooShort (count : Nat) (expected : String)
  | tooLong (count : Nat)
  | badHash (e : Hash.ParseError)

def variantList : List String → String
  | [] => "there are no variants"
  | [a] => "expected `" ++ a ++ "`"
  | [a, b] => "expected `" ++ a ++ "` or `" ++ b ++ "`"
  | names => "expected one of " ++ String.intercalate ", " (names.map fun n => "`" ++ n ++ "`")

def Mismatch.message : Mismatch → String
  | .missingField name => "missing field `" ++ name ++ "`"
  | .duplicateField name => "duplicate field `" ++ name ++ "`"
  | .wrongType found expected =>
    "invalid type: " ++ found.message ++ ", expected " ++ expected
  | .wrongValue found expected =>
    "invalid value: " ++ found.message ++ ", expected " ++ expected
  | .unknownVariant name variants =>
    "unknown variant `" ++ name ++ "`, " ++ variantList variants
  | .tooShort count expected =>
    "invalid length " ++ toString count ++ ", expected " ++ expected
  | .tooLong count =>
    "invalid length " ++ toString count ++ ", expected fewer elements in array"
  | .badHash e => e.message

/-- Why a text does not hold what a reader expects: it is no document, or not the right one. -/
inductive Refusal
  | malformed
  | mismatch (m : Mismatch)

end Json

end ChainFollower
