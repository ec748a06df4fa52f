import ChainFollower.Chain.Simulated
import ChainFollower.Ensemble
import ChainFollower.Game.Registry
import ChainFollower.Game.Tally
import ChainFollower.Rehearsal.Counter
import ChainFollower.Rehearsal.Fault
import ChainFollower.Rehearsal.Noted
import ChainFollower.Store.Depot

namespace ChainFollower

namespace Rehearsal

/-- Answers that take the place of the chain's own. -/
structure Overrides where
  tip : Option Tip
  hashes : List (UInt64 × Option Hash)
  blocks : List (Hash × Json)

def Overrides.none : Overrides := ⟨.none, [], []⟩

/-- A request, and the state its follower had published at that moment, where that is known. -/
structure Note where
  request : Request
  published : Option SyncState

def Note.line (n : Note) : String :=
  match n.published with
  | some state => n.request.line ++ " [" ++ state.name ++ "]"
  | none => n.request.line

/-- What followers are tried out in: a chain whose answers can be replaced, stores, and calls of either that can be
made to fail, with a note of every call. -/
structure World where
  chain : SimulatedChain
  overrides : Overrides
  faults : List Fault
  depot : Depot
  /-- The buffers of the tally game. -/
  buffer : Buffered Unit
  bus : Bus
  /-- Nanoseconds since the beginning. -/
  now : Nat
  /-- The calls so far, the last first. -/
  notes : List Note

namespace World

def start (network : Network) (depot : Depot) : World :=
  ⟨.start network, .none, [], depot, .start (), .empty, 0, []⟩

def rest (d : Duration) (w : World) : World := { w with now := w.now + d.lasting }

def note (published : Option SyncState) (request : Request) (w : World) : World :=
  { w with notes := ⟨request, published⟩ :: w.notes }

/-- The lines of the notes in order, and the world without them. -/
def takeNotes (w : World) : List String × World :=
  (w.notes.reverse.map Note.line, { w with notes := [] })

/-- Whether a call fails. -/
def strike (target : Target) (w : World) : Bool × World :=
  let (fails, faults) := Fault.strike target w.faults
  (fails, { w with faults })

/-- Mines `n + 1` blocks of the same moves; the first result is the last one. -/
def mine (moves : List (String × Json)) : Nat → World → Header × List Header × World
  | 0, w =>
    let (header, chain) := w.chain.attach moves
    (header, [], { w with chain })
  | n + 1, w =>
    let (header, chain) := w.chain.attach moves
    let (last, between, w) := mine moves n { w with chain }
    (last, header :: between, w)

/-- An answer with what takes its place. A chain that cannot be reached stays so. -/
def replaced (w : World) : (q : Query) → q.Answer
  | .info =>
    (w.chain.answer .info).map fun info : ChainInfo =>
      { info with tip := w.overrides.tip.getD info.tip }
  | .hashAt height =>
    (w.chain.answer (.hashAt height)).map fun hash : Option Hash =>
      (w.overrides.hashes.lookup height).getD hash
  | .block game hash =>
    match w.overrides.blocks.lookup hash with
    | some payload => if w.chain.offline then .error SimulatedChain.unreachable else .ok payload
    | none => w.chain.answer (.block game hash)

def failed : (q : Query) → q.Answer
  | .info => .error (.network "injected")
  | .hashAt _ => .error (.network "injected")
  | .block _ _ => .error (.network "injected")

def source : Source World where
  answer q w :=
    let (fails, w) := w.strike (.ofQuery q)
    (if fails then failed q else w.replaced q, w)

/-- A store in the depot, which never fails on request. -/
def shelved (shelf : Shelf) : Store World :=
  shelf.store.lift World.depot fun depot w => { w with depot }

def guarded {α : Type} (target : Target) (call : World → Except StoreError α × World) (w : World) :
    Except StoreError α × World :=
  let (fails, w) := w.strike target
  if fails then (.error (.corrupted "injected"), w) else call w

/-- A store in the depot with its faults. -/
def store (shelf : Shelf) : Store World where
  load := guarded .load (shelved shelf).load
  commit c := guarded .commit ((shelved shelf).commit c)
  undo tip := guarded .undo ((shelved shelf).undo tip)
  prune height := guarded .prune ((shelved shelf).prune height)
  heights := (shelved shelf).heights

def site : Site World where
  bus := World.bus
  setBus bus w := { w with bus }
  now := World.now
  setNow now w := { w with now }
  openStore path w :=
    let (shelf, depot) := w.depot.openShelf path
    (shelf.map shelved, { w with depot })

end World

/-- The games that can be played. -/
inductive Player
  | registry
  | tally
  | counter (c : Counter)
  deriving DecidableEq, Repr

namespace Player

def id : Player → String
  | registry => Registry.id
  | tally => Tally.id
  | counter c => c.id

def game (start : Tip) : Player → Game World
  | registry => Registry.game start
  | tally => (Tally.game start).lift World.buffer fun buffer w => { w with buffer }
  | counter c => c.game start

end Player

end Rehearsal

end ChainFollower
