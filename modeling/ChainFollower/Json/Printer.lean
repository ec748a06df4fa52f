import ChainFollower.Json.Basic
import ChainFollower.Binary64.Shortest
import ChainFollower.Text.Hex
import ChainFollower.Text.Utf8

namespace ChainFollower

namespace Json

def escapeChar (c : Char) : List Char :=
  if c = '\x22' then ['\\', '\x22']
  else if c = '\\' then ['\\', '\\']
  else if c = '\x08' then ['\\', 'b']
  else if c = '\t' then ['\\', 't']
  else if c = '\n' then ['\\', 'n']
  else if c = '\x0c' then ['\\', 'f']
  else if c = '\r' then ['\\', 'r']
  else if c.toNat < 0x20 then
    ['\\', 'u', '0', '0', Hex.digit (c.toNat / 16), Hex.digit (c.toNat % 16)]
  else [c]

def quoteChars (s : String) : List Char :=
  '\x22' :: s.toList.flatMap escapeChar ++ ['\x22']

def Number.chars : Number → List Char
  | .int n => (toString n).toList
  | .float x => x.text.toList

mutual

def chars : Json → List Char
  | .null => ['n', 'u', 'l', 'l']
  | .bool true => ['t', 'r', 'u', 'e']
  | .bool false => ['f', 'a', 'l', 's', 'e']
  | .num n => n.chars
  | .str s => quoteChars s
  | .arr [] => ['[', ']']
  | .arr (x :: xs) => '[' :: chars x ++ itemsChars xs
  | .obj [] => ['\x7b', '\x7d']
  | .obj ((k, v) :: fields) => '\x7b' :: quoteChars k ++ ':' :: chars v ++ fieldsChars fields

/-- The items after the first, and the closing bracket. -/
def itemsChars : List Json → List Char
  | [] => [']']
  | x :: xs => ',' :: chars x ++ itemsChars xs

/-- The fields after the first, and the closing brace. -/
def fieldsChars : List (String × Json) → List Char
  | [] => ['\x7d']
  | (k, v) :: fields => ',' :: quoteChars k ++ ':' :: chars v ++ fieldsChars fields

end

def text (j : Json) : String := String.ofList j.chars

def bytes (j : Json) : Bytes := Utf8.encodeChars j.chars

end Json

end ChainFollower
