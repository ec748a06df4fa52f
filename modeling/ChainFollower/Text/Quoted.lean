import ChainFollower.Text.Hex
import ChainFollower.Text.Invisible

namespace ChainFollower

namespace Quoted

/-- The code point between braces: `\u` and the shortest lower-case digits. -/
def codePoint (c : Char) : String := "\\u\x7b" ++ Hex.ofNat c.toNat ++ "\x7d"

/-- The form of `c` inside quotes `quote`; the other quote stands for itself. -/
def escape (quote c : Char) : String :=
  if c = '\x00' then "\\0"
  else if c = '\t' then "\\t"
  else if c = '\r' then "\\r"
  else if c = '\n' then "\\n"
  else if c = '\\' then "\\\\"
  else if c = quote then String.ofList ['\\', c]
  else if c.toNat < 0x20 then codePoint c
  else if c.toNat < 0x7F then String.ofList [c]
  else if Text.isInvisible c.toNat then codePoint c
  else String.ofList [c]

def char (c : Char) : String := "'" ++ escape '\x27' c ++ "'"

def text (s : String) : String :=
  "\"" ++ String.join (s.toList.map (escape '\x22')) ++ "\""

end Quoted

end ChainFollower
