import ChainFollower.Json.Parser
import ChainFollower.Json.Mismatch

namespace ChainFollower

namespace Json

/-- Typed reading, from a document that has been read as a whole, and straight from a text. Both accept the
same values. A text is left at the first thing that does not fit, so what follows it is not looked at; a
document has been checked as a whole before, and the fields of its objects are visited in the order of
their keys. -/
structure Codec (α : Type) where
  ofJson : Json → Except Mismatch α
  ofBytes : Bytes → Except Refusal (α × Bytes)

/-- The step at the start of the bytes, or a malformed text. -/
def orMalformed {α : Type} : Option α → Except Refusal α
  | some a => .ok a
  | none => .error .malformed

/-- What the text has at this place, read as far as a message shows it. -/
def foundAt (bytes : Bytes) : Option Found :=
  match bytes with
  | [] => none
  | b :: r =>
    if b = 0x6E then (expect? [0x75, 0x6C, 0x6C] r).map fun _ => .null
    else if b = 0x74 then (expect? [0x72, 0x75, 0x65] r).map fun _ => .bool true
    else if b = 0x66 then (expect? [0x61, 0x6C, 0x73, 0x65] r).map fun _ => .bool false
    else if b = 0x22 then (string? r).map fun (s, _) => .str s
    else if b = 0x5B then some .sequence
    else if b = 0x7B then some .map
    else (number? bytes).map fun (n, _) => .num n

def mistyped {α : Type} (expected : String) (bytes : Bytes) : Except Refusal α :=
  match foundAt bytes with
  | none => .error .malformed
  | some found => .error (.mismatch (.wrongType found expected))

namespace Codec

def text {α : Type} (expected : String) (read : String → Except Mismatch α) : Codec α where
  ofJson
    | .str s => read s
    | j => .error (.wrongType j.found expected)
  ofBytes bytes :=
    match skipSpace bytes with
    | [] => .error .malformed
    | b :: r =>
      if b = 0x22 then
        match string? r with
        | none => .error .malformed
        | some (s, rest) =>
          match read s with
          | .ok a => .ok (a, rest)
          | .error m => .error (.mismatch m)
      else mistyped expected (b :: r)

def hash : Codec Hash :=
  text "a 64 character hex string" fun s => (Hash.ofHex s).mapError .badHash

def string : Codec String := text "a string" .ok

/-- A whole number below `bound`, kept as `make` says. -/
def bounded {α : Type} (expected : String) (bound : Nat) (make : Nat → α) : Codec α :=
  let ofNumber : Number → Except Mismatch α
    | .int n =>
      if 0 ≤ n ∧ n < bound then .ok (make n.toNat) else .error (.wrongValue (.num (.int n)) expected)
    | .float x => .error (.wrongType (.num (.float x)) expected)
  { ofJson := fun
      | .num n => ofNumber n
      | j => .error (.wrongType j.found expected)
    ofBytes := fun bytes =>
      match skipSpace bytes with
      | [] => .error .malformed
      | b :: r =>
        if b = 0x2D ∨ isDigit b then
          match number? (b :: r) with
          | none => .error .malformed
          | some (n, rest) =>
            match ofNumber n with
            | .ok a => .ok (a, rest)
            | .error m => .error (.mismatch m)
        else mistyped expected (b :: r) }

def uint64 : Codec UInt64 := bounded "u64" UInt64.size UInt64.ofNat

def byte : Codec UInt8 := bounded "u8" UInt8.size UInt8.ofNat

/-- A value that may be null. -/
def nullable {α : Type} (c : Codec α) : Codec (Option α) where
  ofJson
    | .null => .ok none
    | j => (c.ofJson j).map some
  ofBytes bytes :=
    match skipSpace bytes with
    | [] => .error .malformed
    | b :: r =>
      if b = 0x6E then
        match expect? [0x75, 0x6C, 0x6C] r with
        | none => .error .malformed
        | some rest => .ok (none, rest)
      else (c.ofBytes (b :: r)).map fun (a, rest) => (some a, rest)

/-- The place of the next element of a list: its first byte, or the end of the list. -/
inductive Place
  | element (bytes : Bytes)
  | close (bytes : Bytes)

def place (first : Bool) (bytes : Bytes) : Except Refusal Place :=
  match skipSpace bytes with
  | [] => .error .malformed
  | b :: r =>
    if b = 0x5D then .ok (.close (b :: r))
    else if first then .ok (.element (b :: r))
    else if b = 0x2C then
      match skipSpace r with
      | [] => .error .malformed
      | c :: r => if c = 0x5D then .error .malformed else .ok (.element (c :: r))
    else .error .malformed

/-- The rest after the closing bracket, which must come next. -/
def closeList {α : Type} (a : α) (bytes : Bytes) : Except Refusal (α × Bytes) :=
  match skipSpace bytes with
  | [] => .error .malformed
  | b :: r => if b = 0x5D then .ok (a, r) else .error .malformed

def elements {α : Type} (c : Codec α) : Nat → Bool → Bytes → Except Refusal (List α × Bytes)
  | 0, _, _ => .error .malformed
  | fuel + 1, first, bytes =>
    match place first bytes with
    | .error e => .error e
    | .ok (.close r) => .ok ([], r)
    | .ok (.element r) =>
      match c.ofBytes r with
      | .error e => .error e
      | .ok (a, r) => (elements c fuel false r).map fun (as, rest) => (a :: as, rest)

def list {α : Type} (c : Codec α) : Codec (List α) where
  ofJson
    | .arr items => items.mapM c.ofJson
    | j => .error (.wrongType j.found "a sequence")
  ofBytes bytes :=
    match skipSpace bytes with
    | [] => .error .malformed
    | b :: r =>
      if b = 0x5B then
        match elements c (r.length + 1) true r with
        | .error e => .error e
        | .ok (as, rest) => closeList as rest
      else mistyped "a sequence" (b :: r)

def bytes : Codec Bytes := list byte

/-- A string passed over: its escapes must be whole, its characters are not looked at. -/
def skipString : Bytes → Option Bytes
  | [] => none
  | a :: r =>
    if a = 0x22 then some r
    else if a < 0x20 then none
    else if a = 0x5C then
      match r with
      | [] => none
      | e :: r =>
        if e = 0x75 then
          match r with
          | a :: b :: c :: d :: r => if (hexFour? a b c d).isSome then skipString r else none
          | _ => none
        else if (simpleEscape? e).isSome then skipString r
        else none
    else skipString r

mutual

/-- The rest after one value of the grammar, nested at will and with numbers of any size. -/
def skipValue : Nat → Bytes → Option Bytes
  | 0, _ => none
  | fuel + 1, bytes =>
    match skipSpace bytes with
    | [] => none
    | b :: r =>
      if b = 0x6E then expect? [0x75, 0x6C, 0x6C] r
      else if b = 0x74 then expect? [0x72, 0x75, 0x65] r
      else if b = 0x66 then expect? [0x61, 0x6C, 0x73, 0x65] r
      else if b = 0x22 then skipString r
      else if b = 0x5B then
        match skipSpace r with
        | [] => none
        | c :: rest => if c = 0x5D then some rest else skipItems fuel r
      else if b = 0x7B then
        match skipSpace r with
        | [] => none
        | c :: rest => if c = 0x7D then some rest else skipMembers fuel r
      else if b = 0x2D then (literal? true r).map Prod.snd
      else (literal? false (b :: r)).map Prod.snd

def skipItems : Nat → Bytes → Option Bytes
  | 0, _ => none
  | fuel + 1, bytes =>
    match skipValue fuel bytes with
    | none => none
    | some r =>
      match skipSpace r with
      | [] => none
      | b :: r =>
        if b = 0x2C then skipItems fuel r else if b = 0x5D then some r else none

def skipMembers : Nat → Bytes → Option Bytes
  | 0, _ => none
  | fuel + 1, bytes =>
    match skipSpace bytes with
    | [] => none
    | b :: r =>
      if b = 0x22 then
        match skipString r with
        | none => none
        | some r =>
          match skipSpace r with
          | [] => none
          | b :: r =>
            if b = 0x3A then
              match skipValue fuel r with
              | none => none
              | some r =>
                match skipSpace r with
                | [] => none
                | b :: r =>
                  if b = 0x2C then skipMembers fuel r else if b = 0x7D then some r else none
            else none
      else none

end

/-- A field of a record that is being filled. -/
structure Slot (σ : Type) where
  name : String
  isSet : σ → Bool
  ofJson : Json → σ → Except Mismatch σ
  ofBytes : Bytes → σ → Except Refusal (σ × Bytes)

def Slot.of {σ α : Type} (name : String) (c : Codec α) (get : σ → Option α) (set : σ → α → σ) :
    Slot σ where
  name
  isSet s := (get s).isSome
  ofJson j s := (c.ofJson j).map (set s)
  ofBytes bytes s := (c.ofBytes bytes).map fun (a, rest) => (set s a, rest)

/-- A record: its name, its fields in order, and the whole once every field is there. A record may
also be given as the list of its fields. -/
structure Shape (σ α : Type) where
  name : String
  empty : σ
  slots : List (Slot σ)
  whole : σ → Option α

namespace Shape

variable {σ α : Type} (shape : Shape σ α)

def described : String := "struct " ++ shape.name

def counted : String :=
  let n := shape.slots.length
  shape.described ++ " with " ++ toString n ++ (if n = 1 then " element" else " elements")

/-- The record, or the first field that is missing. -/
def finish (s : σ) : Except Mismatch α :=
  match shape.slots.find? fun slot => !slot.isSet s with
  | some slot => .error (.missingField slot.name)
  | none =>
    match shape.whole s with
    | some a => .ok a
    | none => .error (.missingField "")

def slot? (key : String) : Option (Slot σ) := shape.slots.find? fun slot => slot.name == key

def fillFields (s : σ) : List (String × Json) → Except Mismatch σ
  | [] => .ok s
  | (key, v) :: fields =>
    match shape.slot? key with
    | none => fillFields s fields
    | some slot =>
      match slot.ofJson v s with
      | .error m => .error m
      | .ok s => fillFields s fields

/-- The elements of a list into the fields, `i` of which are filled. -/
def fillItems (i : Nat) (s : σ) : List (Slot σ) → List Json → Except Mismatch (σ × List Json)
  | [], rest => .ok (s, rest)
  | _ :: _, [] => .error (.tooShort i shape.counted)
  | slot :: slots, v :: items =>
    match slot.ofJson v s with
    | .error m => .error m
    | .ok s => fillItems (i + 1) s slots items

def ofJson : Json → Except Mismatch α
  | .obj fields =>
    match shape.fillFields shape.empty fields with
    | .error m => .error m
    | .ok s => shape.finish s
  | .arr items =>
    match shape.fillItems 0 shape.empty shape.slots items with
    | .error m => .error m
    | .ok (s, rest) =>
      match shape.finish s with
      | .error m => .error m
      | .ok a => if rest.isEmpty then .ok a else .error (.tooLong items.length)
  | j => .error (.wrongType j.found shape.described)

/-- The elements of a list straight from the text, `i` of which have been read. -/
def readItems (i : Nat) (s : σ) : List (Slot σ) → Bytes → Except Refusal (σ × Bytes)
  | [], bytes => .ok (s, bytes)
  | slot :: slots, bytes =>
    match place (i = 0) bytes with
    | .error e => .error e
    | .ok (.close _) => .error (.mismatch (.tooShort i shape.counted))
    | .ok (.element r) =>
      match slot.ofBytes r s with
      | .error e => .error e
      | .ok (s, r) => readItems (i + 1) s slots r

/-- Fields from the opening quote of a key on, and the closing brace. -/
def readMembers : Nat → σ → Bytes → Except Refusal (σ × Bytes)
  | 0, _, _ => .error .malformed
  | fuel + 1, s, bytes =>
    match skipSpace bytes with
    | [] => .error .malformed
    | b :: r =>
      if b = 0x22 then
        match string? r with
        | none => .error .malformed
        | some (key, r) =>
          let value : Except Refusal (σ × Bytes) :=
            match shape.slot? key with
            | none =>
              match skipSpace r with
              | [] => .error .malformed
              | b :: r =>
                if b = 0x3A then
                  (orMalformed (skipValue (2 * r.length + 2) r)).map fun rest => (s, rest)
                else .error .malformed
            | some slot =>
              if slot.isSet s then .error (.mismatch (.duplicateField slot.name))
              else
                match skipSpace r with
                | [] => .error .malformed
                | b :: r => if b = 0x3A then slot.ofBytes r s else .error .malformed
          match value with
          | .error e => .error e
          | .ok (s, r) =>
            match skipSpace r with
            | [] => .error .malformed
            | b :: r =>
              if b = 0x2C then readMembers fuel s r
              else if b = 0x7D then .ok (s, r)
              else .error .malformed
      else .error .malformed

def finishBytes (s : σ) (rest : Bytes) : Except Refusal (α × Bytes) :=
  match shape.finish s with
  | .error m => .error (.mismatch m)
  | .ok a => .ok (a, rest)

def ofBytes (bytes : Bytes) : Except Refusal (α × Bytes) :=
  match skipSpace bytes with
  | [] => .error .malformed
  | b :: r =>
    if b = 0x5B then
      match shape.readItems 0 shape.empty shape.slots r with
      | .error e => .error e
      | .ok (s, r) =>
        match shape.finishBytes s r with
        | .error e => .error e
        | .ok (a, r) => closeList a r
    else if b = 0x7B then
      match skipSpace r with
      | [] => .error .malformed
      | c :: rest =>
        if c = 0x7D then shape.finishBytes shape.empty rest
        else
          match shape.readMembers (r.length + 1) shape.empty r with
          | .error e => .error e
          | .ok (s, rest) => shape.finishBytes s rest
    else mistyped shape.described (b :: r)

def codec : Codec α := ⟨shape.ofJson, shape.ofBytes⟩

end Shape

/-- Behind the only key of an object: a colon, a null and the closing brace. -/
def closeVariant (bytes : Bytes) : Except Refusal Bytes :=
  match skipSpace bytes with
  | [] => .error .malformed
  | b :: r =>
    if b = 0x3A then
      match skipSpace r with
      | [] => .error .malformed
      | b :: r =>
        if b = 0x6E then
          match expect? [0x75, 0x6C, 0x6C] r with
          | none => .error .malformed
          | some r =>
            match skipSpace r with
            | [] => .error .malformed
            | b :: r => if b = 0x7D then .ok r else .error .malformed
        else mistyped "unit" (b :: r)
    else .error .malformed

/-- A name, or an object whose only key is the name and whose value is null. A key that is no string
makes the text malformed. -/
def variant {α : Type} (variants : List (String × α)) : Codec α :=
  let find (s : String) : Except Mismatch α :=
    match variants.lookup s with
    | some a => .ok a
    | none => .error (.unknownVariant s (variants.map Prod.fst))
  let key : Codec α := text "variant identifier" find
  { ofJson := fun
      | .str s => find s
      | .obj [(s, v)] =>
        match find s with
        | .error m => .error m
        | .ok a =>
          match v with
          | .null => .ok a
          | v => .error (.wrongType v.found "unit")
      | .obj _ => .error (.wrongValue .map "map with a single key")
      | j => .error (.wrongType j.found "string or map")
    ofBytes := fun bytes =>
      match skipSpace bytes with
      | [] => .error .malformed
      | b :: r =>
        if b = 0x22 then key.ofBytes (b :: r)
        else if b = 0x7B then
          match skipSpace r with
          | [] => .error .malformed
          | b :: r =>
            if b = 0x22 then
              match key.ofBytes (b :: r) with
              | .error e => .error e
              | .ok (a, r) => (closeVariant r).map fun r => (a, r)
            else .error .malformed
        else .error .malformed }

/-- A pair as a list of exactly two elements. -/
def pair {α β : Type} (a : Codec α) (b : Codec β) : Codec (α × β) where
  ofJson
    | .arr items =>
      match items with
      | [] => .error (.tooShort 0 "a tuple of size 2")
      | x :: items =>
        match a.ofJson x with
        | .error m => .error m
        | .ok x =>
          match items with
          | [] => .error (.tooShort 1 "a tuple of size 2")
          | y :: items =>
            match b.ofJson y with
            | .error m => .error m
            | .ok y => if items.isEmpty then .ok (x, y) else .error (.tooLong (items.length + 2))
    | j => .error (.wrongType j.found "a tuple of size 2")
  ofBytes bytes :=
    match skipSpace bytes with
    | [] => .error .malformed
    | c :: r =>
      if c = 0x5B then
        match place true r with
        | .error e => .error e
        | .ok (.close _) => .error (.mismatch (.tooShort 0 "a tuple of size 2"))
        | .ok (.element r) =>
          match a.ofBytes r with
          | .error e => .error e
          | .ok (x, r) =>
            match place false r with
            | .error e => .error e
            | .ok (.close _) => .error (.mismatch (.tooShort 1 "a tuple of size 2"))
            | .ok (.element r) =>
              match b.ofBytes r with
              | .error e => .error e
              | .ok (y, r) => closeList (x, y) r
      else mistyped "a tuple of size 2" (c :: r)

/-- Entries from the opening quote of a key on, and the closing brace, in the order of the text. -/
def readEntries {α : Type} (c : Codec α) : Nat → Bytes → Except Refusal (List (String × α) × Bytes)
  | 0, _ => .error .malformed
  | fuel + 1, bytes =>
    match skipSpace bytes with
    | [] => .error .malformed
    | b :: r =>
      if b = 0x22 then
        match string? r with
        | none => .error .malformed
        | some (key, r) =>
          match skipSpace r with
          | [] => .error .malformed
          | b :: r =>
            if b = 0x3A then
              match c.ofBytes r with
              | .error e => .error e
              | .ok (a, r) =>
                match skipSpace r with
                | [] => .error .malformed
                | b :: r =>
                  if b = 0x2C then
                    (readEntries c fuel r).map fun (entries, rest) => ((key, a) :: entries, rest)
                  else if b = 0x7D then .ok ([(key, a)], r)
                  else .error .malformed
            else .error .malformed
      else .error .malformed

/-- The entries of an object with values of one kind, repeated keys included. -/
def entries {α : Type} (c : Codec α) : Codec (List (String × α)) where
  ofJson
    | .obj fields => fields.mapM fun (key, v) => (c.ofJson v).map fun a => (key, a)
    | j => .error (.wrongType j.found "a map")
  ofBytes bytes :=
    match skipSpace bytes with
    | [] => .error .malformed
    | b :: r =>
      if b = 0x7B then
        match skipSpace r with
        | [] => .error .malformed
        | d :: rest =>
          if d = 0x7D then .ok ([], rest)
          else readEntries c (r.length + 1) r
      else mistyped "a map" (b :: r)

/-- A whole text as one value; only blanks may follow it. -/
def parse {α : Type} (c : Codec α) (bytes : Bytes) : Except Refusal α :=
  match c.ofBytes bytes with
  | .error e => .error e
  | .ok (a, rest) => if skipSpace rest = [] then .ok a else .error .malformed

end Codec

end Json

end ChainFollower
