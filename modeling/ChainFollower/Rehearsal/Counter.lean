import ChainFollower.Game.Basic

namespace ChainFollower

/-- What a counter refuses from the beginning. -/
inductive CounterFlaw
  | names
  | initial
  deriving DecidableEq, Repr

/-- A game that counts blocks. Its state is the count in eight bytes, and the undo data of a block is the state
before it. A block with the move `bad` cannot be applied, one with the move `stuck` cannot be undone. -/
structure Counter where
  id : String
  flaw : Option CounterFlaw
  deriving DecidableEq, Repr

namespace Counter

def hasMove (block : Json) (move : String) : Bool :=
  match (block.field? "moves").bind Json.list? with
  | some moves => moves.any fun m => m.str? == some move
  | none => false

def count (state : Bytes) : Except GameError UInt64 :=
  match state.readUInt64 with
  | some (n, []) => .ok n
  | _ => .error (.invalidState "expected 8 bytes")

def forward (state : Bytes) (block : Json) : Except GameError ForwardStep :=
  if hasMove block "bad" then .error (.invalidBlock "bad move")
  else (count state).map fun n => ⟨Bytes.ofUInt64 (n + 1), state⟩

def backward (state : Bytes) (block : Json) (undo : Bytes) : Except GameError Bytes :=
  if hasMove block "stuck" then .error (.invalidUndo "stuck move")
  else
    match count state with
    | .error e => .error e
    | .ok n =>
      if n = 0 then .error (.invalidState "negative count")
      else if undo = Bytes.ofUInt64 (n - 1) then .ok undo
      else .error (.invalidUndo "wrong undo")

def gameNames (c : Counter) : Except GameError GameNames :=
  if c.flaw = some .names then .error (.invalidState "no names")
  else .ok ⟨c.id, "Counter " ++ c.id, "1"⟩

def initial (c : Counter) (start : Tip) : Except GameError InitialState :=
  if c.flaw = some .initial then .error (.invalidState "no initial")
  else .ok ⟨Bytes.ofUInt64 0, start.height, start.hash⟩

/-- The game that starts at `start` on every network. -/
def game {σ : Type} (c : Counter) (start : Tip) : Game σ where
  names s := (c.gameNames.mapError .refused, s)
  initial _ s := ((c.initial start).mapError .refused, s)
  forward _ state block s := ((forward state block).mapError .refused, s)
  backward _ state block undo s := ((backward state block undo).mapError .refused, s)

end Counter

end ChainFollower
