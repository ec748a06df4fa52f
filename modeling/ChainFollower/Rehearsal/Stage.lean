import ChainFollower.Rehearsal.World

namespace ChainFollower

namespace Rehearsal

/-- A game to be run, and whether its store is in memory and stays. -/
structure Part where
  player : Player
  kept : Bool
  deriving DecidableEq, Repr

/-- Daemons are built one after the other, and stores in memory can outlive them. -/
structure Stage extends Ensemble World where
  config : DaemonConfig
  parts : List Part
  /-- The stores that stay. -/
  shelves : List (String × Shelf)
  publisher : Publisher

namespace Stage

def start (world : World) (config : DaemonConfig) (parts : List Part) (endpoint : String) : Stage where
  toEnsemble := .start world
  config
  parts
  shelves := []
  publisher := .start endpoint

/-- The registration of a game; the store that stays is made when it is first needed. -/
def register (p : Part) (s : Stage) : Registration World × Stage :=
  let game := (p.player.game SimulatedChain.genesis.tip).noted (World.note none)
  if p.kept then
    match s.shelves.lookup p.player.id with
    | some shelf => (⟨game, some (World.shelved shelf)⟩, s)
    | none =>
      let (shelf, depot) := s.world.depot.allocate
      (⟨game, some (World.shelved shelf)⟩,
        { s with world.depot := depot, shelves := (p.player.id, shelf) :: s.shelves })
  else (⟨game, none⟩, s)

def registerAll : List Part → Stage → List (Registration World) × Stage
  | [], s => ([], s)
  | p :: parts, s =>
    let (r, s) := s.register p
    let (rest, s) := registerAll parts s
    (r :: rest, s)

/-- Builds a daemon, which leads from then on. -/
def build (s : Stage) (transport chain : Bool) (parts : List Part) :
    Except BuildFailure Unit × Stage :=
  let (registrations, s) := registerAll parts s
  let source := if chain then some (World.source.noted (World.note none)) else none
  let (result, ensemble) := s.toEnsemble.build World.site s.config transport source registrations
  (result, { s with toEnsemble := ensemble })

/-- Lets the workers run until they wait. -/
def settled (s : Stage) : Stage := { s with toEnsemble := s.settle World.site }

/-- How long a wait for a status may take. -/
def patience : Duration := .ofSecs 3600

def isSyncedAt (height : UInt64) (s : Status) : Bool :=
  s.state = .synced && s.tip.map Tip.height = some height

/-- Waits until a game is synced at a height. -/
def waitForHeight (s : Stage) (game : String) (height : UInt64) : Ensemble.Waited × Stage :=
  let (waited, ensemble) :=
    s.toEnsemble.waitFor World.site game (isSyncedAt height) patience
  (waited, { s with toEnsemble := ensemble })

def stop (s : Stage) : Except (WorkerHalt Halt) Unit × Stage :=
  let (result, ensemble) := s.shutdown World.site
  (result, { s with toEnsemble := ensemble })

/-- The store of a game that stays, or the one that is opened where daemons keep their stores. Stores
that daemons make in memory are theirs alone. -/
def openShelf (s : Stage) (game : String) : Except StoreError (Option Shelf) × Stage :=
  match s.shelves.lookup game with
  | some shelf => (.ok (some shelf), s)
  | none =>
    match s.config.gameDir game with
    | none => (.ok none, s)
    | some path =>
      let (shelf, depot) := s.world.depot.openShelf (some path)
      (shelf.map some, { s with world.depot := depot })

/-- After the publisher has used the bus. -/
def published (s : Stage) (publisher : Publisher) (bus : Bus) : Stage :=
  { s with publisher, toEnsemble := { s.toEnsemble with world.bus := bus }.wakeReceivers World.site }

/-- Publishes a block to games. -/
def announce (s : Stage) (kind : EventKind) (block : Header) (games : List String) : Stage :=
  games.foldl (fun s game =>
    match s.world.chain.payload game block.hash with
    | .error _ => s
    | .ok payload =>
      let (_, publisher, bus) := s.publisher.publish s.world.bus kind game payload
      s.published publisher bus) s

end Stage

end Rehearsal

end ChainFollower
