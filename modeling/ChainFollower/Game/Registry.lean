import ChainFollower.Game.Basic
import ChainFollower.Json.Codec

namespace ChainFollower

namespace Registry

/-- The state of the game of names: names in ascending order, each once, with their values. A move sets a name,
and undo data lists, for every move in order, the name and the value it had. -/
abbrev Table := List (String × String)

namespace Table

def insert (name value : String) : Table → Table
  | [] => [(name, value)]
  | (n, v) :: rest =>
    if name < n then (name, value) :: (n, v) :: rest
    else if name = n then (name, value) :: rest
    else (n, v) :: insert name value rest

def remove (name : String) (t : Table) : Table := t.filter fun entry => entry.1 != name

/-- Sets a name to a value, or removes it. -/
def restore (t : Table) : String × Option String → Table
  | (name, some value) => insert name value t
  | (name, none) => t.remove name

def ofEntries (entries : List (String × String)) : Table :=
  entries.foldl (fun t (name, value) => insert name value t) []

end Table

structure Move where
  name : String
  value : String
  deriving DecidableEq, Repr

/-- For every move the name it set and the value before. -/
abbrev Undo := List (String × Option String)

open Json (Codec)

def Move.codec : Codec Move :=
  let shape : Codec.Shape (Option String × Option String) Move :=
    { name := "NameMove"
      empty := (none, none)
      slots := [.of "name" .string Prod.fst (fun s a => (some a, s.2)),
        .of "value" .string Prod.snd (fun s a => (s.1, some a))]
      whole := fun (name, value) => do return ⟨← name, ← value⟩ }
  shape.codec

def tableCodec : Codec (List (String × String)) :=
  let shape : Codec.Shape (Option (List (String × String))) (List (String × String)) :=
    { name := "Registry"
      empty := none
      slots := [.of "names" (.entries .string) id (fun _ a => some a)]
      whole := id }
  shape.codec

def undoCodec : Codec Undo :=
  let shape : Codec.Shape (Option Undo) Undo :=
    { name := "RegistryUndo"
      empty := none
      slots := [.of "previous" (.list (.pair .string (.nullable .string))) id (fun _ a => some a)]
      whole := id }
  shape.codec

def Table.encode (t : Table) : Bytes :=
  Json.bytes (.obj [("names", .obj (t.map fun (name, value) => (name, .str value)))])

def Table.decode? (bytes : Bytes) : Option Table :=
  (tableCodec.parse bytes).toOption.map Table.ofEntries

def Undo.encode (u : Undo) : Bytes :=
  let previous := u.map fun (name, before) =>
    Json.arr [.str name, match before with | some value => .str value | none => .null]
  Json.bytes (.obj [("previous", .arr previous)])

def Undo.decode? (bytes : Bytes) : Option Undo := (undoCodec.parse bytes).toOption

/-- The moves of a block, in order. -/
def moves (block : Json) : List Move :=
  match block.field? "moves" with
  | some (.arr items) => items.filterMap fun item => (Move.codec.ofJson item).toOption
  | _ => []

/-- Makes moves one after the other and notes what they replace. -/
def play : List Move → Table → Table × Undo
  | [], t => (t, [])
  | m :: rest, t =>
    let (after, undo) := play rest (t.insert m.name m.value)
    (after, (m.name, t.lookup m.name) :: undo)

/-- Takes moves back, the last one first. -/
def takeBack (t : Table) (u : Undo) : Table := u.reverse.foldl Table.restore t

def id : String := "names"

def gameNames : GameNames := ⟨id, "Name registry", "0.1.0"⟩

def forward (state : Bytes) (block : Json) : Except GameError ForwardStep :=
  match Table.decode? state with
  | none => .error (.invalidState "invalid registry")
  | some t =>
    let (after, undo) := play (moves block) t
    .ok ⟨after.encode, Undo.encode undo⟩

def backward (state undo : Bytes) : Except GameError Bytes :=
  match Table.decode? state with
  | none => .error (.invalidState "invalid registry")
  | some t =>
    match Undo.decode? undo with
    | none => .error (.invalidUndo "invalid undo data")
    | some u => .ok (takeBack t u).encode

/-- The game that starts at `start` on every network. -/
def game {σ : Type} (start : Tip) : Game σ where
  names s := (.ok gameNames, s)
  initial _ s := (.ok ⟨Table.encode [], start.height, start.hash⟩, s)
  forward _ state block s := ((forward state block).mapError .refused, s)
  backward _ state _ undo s := ((backward state undo).mapError .refused, s)

end Registry

end ChainFollower
