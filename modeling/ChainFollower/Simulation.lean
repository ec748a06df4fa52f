import ChainFollower.Chain.Simulated
import ChainFollower.Ensemble
import ChainFollower.Game.Registry
import ChainFollower.Game.Tally
import ChainFollower.Store.Memory

namespace ChainFollower

namespace Simulation

/-- Everything the simulation and the daemon share; each game has a store of its own. -/
structure World (ν τ : Type) where
  chain : SimulatedChain
  names : ν
  tally : τ
  buffer : Buffered Unit
  bus : Bus
  /-- Nanoseconds since the beginning. -/
  now : Nat

variable {ν τ : Type}

def World.start (network : Network) (names : ν) (tally : τ) : World ν τ :=
  ⟨.start network, names, tally, .start (), .empty, 0⟩

/-- The games in the order of their registration. -/
def games : List String := [Registry.id, Tally.id]

def genesis : Tip := SimulatedChain.genesis.tip

def source : Source (World ν τ) := ⟨fun q w => (w.chain.answer q, w)⟩

def registrations (names : Store ν) (tally : Store τ) : List (Registration (World ν τ)) :=
  [⟨Registry.game genesis, some (names.lift World.names fun names w => { w with names })⟩,
    ⟨(Tally.game genesis).lift World.buffer fun buffer w => { w with buffer },
      some (tally.lift World.tally fun tally w => { w with tally })⟩]

/-- Stores are all brought by the games. -/
def site : Site (World ν τ) where
  bus := World.bus
  setBus bus w := { w with bus }
  now := World.now
  setNow now w := { w with now }
  openStore _ w := (.error .io, w)

/-- The moves in the block of a round: a name for the one game, two moves for the other. -/
def moves (round : Nat) : List (String × Json) :=
  let n := Json.num (.int round)
  [(Registry.id, .obj [
      ("name", .str ("player" ++ toString (round % 5))),
      ("value", .str ("round " ++ toString round))]),
    (Tally.id, .obj [("round", n)]),
    (Tally.id, .obj [("bonus", .bool true), ("round", n)])]

/-- What the simulation does next. -/
inductive Action
  /-- The rounds from this one on. -/
  | rounds (round : Nat)
  | mine (round : Nat) (mayDrop : Bool)
  | unmine
  | announce (kind : EventKind) (game : String) (block : Header) (mayDrop : Bool)
  /-- Time for the daemon. -/
  | rest
  deriving DecidableEq

/-- A busy chain for two games. Every round mines a block, or replaces a few and mines one more; every
change is announced to both games, and some announcements get lost. A last block is announced without
loss, and then both games have to reach it. -/
structure State (ν τ : Type) where
  config : SimulationConfig
  world : World ν τ
  publisher : Publisher
  /-- Announcements so far, the lost ones included. -/
  announced : Nat
  todo : List Action

def start (config : SimulationConfig) (world : World ν τ) (publisher : Publisher) : State ν τ :=
  ⟨config, world, publisher, 0, [.rounds 1]⟩

def announcements (kind : EventKind) (block : Header) (mayDrop : Bool) : List Action :=
  games.map fun game => .announce kind game block mayDrop

/-- The actions of a round and the rounds after it, or the last block. -/
def State.schedule (s : State ν τ) (round : Nat) : List Action :=
  let every := s.config.reorgEvery.toNat
  if s.config.blocks.toNat < round then [.mine (s.config.blocks.toNat + 1) false]
  else if 0 < every ∧ round % every = 0 then
    let depth := min s.config.reorgDepth.toNat s.world.chain.tip.height.toNat
    List.replicate depth .unmine ++ List.replicate (depth + 1) (.mine round true)
      ++ [.rest, .rounds (round + 1)]
  else [.mine round true, .rest, .rounds (round + 1)]

/-- Publishes a block to a game, or loses the message. -/
def State.announce (s : State ν τ) (kind : EventKind) (game : String) (block : Header)
    (mayDrop : Bool) : Except ChainError (State ν τ) :=
  let s := { s with announced := s.announced + 1 }
  let every := s.config.dropEvery.toNat
  if mayDrop ∧ 0 < every ∧ s.announced % every = 0 then
    .ok { s with publisher := s.publisher.skip kind game 1 }
  else
    match s.world.chain.payload game block.hash with
    | .error e => .error e
    | .ok payload =>
      let (_, publisher, bus) := s.publisher.publish s.world.bus kind game payload
      .ok { s with publisher, world := { s.world with bus } }

/-- One action on the shared world; `rest` only lets time pass. -/
def State.act (s : State ν τ) : Action → Except ChainError (State ν τ)
  | .rounds round => .ok { s with todo := s.schedule round ++ s.todo }
  | .mine round mayDrop =>
    let (block, chain) := s.world.chain.attach (moves round)
    .ok { s with
      world := { s.world with chain }
      todo := announcements .attach block mayDrop ++ s.todo }
  | .unmine =>
    match s.world.chain.detach with
    | .error e => .error e
    | .ok (block, chain) =>
      .ok { s with
        world := { s.world with chain }
        todo := announcements .detach block true ++ s.todo }
  | .announce kind game block mayDrop => s.announce kind game block mayDrop
  | .rest => .ok s

inductive Failure
  | chain (e : ChainError)
  | notReached (game : String) (tip : Tip)
  | stopped (game : String) (tip : Tip)

def Failure.message : Failure → String
  | .chain e => e.message
  | .notReached game tip => "game " ++ game ++ " did not reach " ++ tip.text
  | .stopped game tip => "game " ++ game ++ " stopped before reaching " ++ tip.text

/-- The simulation and the daemon at a moment. -/
structure Moment (ν τ : Type) where
  state : State ν τ
  ensemble : Ensemble (World ν τ)

/-- What the daemon finds when the simulation waits. -/
def Moment.handOver (m : Moment ν τ) : Ensemble (World ν τ) :=
  { m.ensemble with world := m.state.world }.wakeReceivers site

/-- The simulation goes on where the daemon has come to. -/
def Moment.takeOver (m : Moment ν τ) (ensemble : Ensemble (World ν τ)) : Moment ν τ :=
  ⟨{ m.state with world := ensemble.world }, ensemble⟩

/-- Runs the actions; the daemon works while the simulation rests. -/
def run : Nat → Moment ν τ → Except Failure Unit × Moment ν τ
  | 0, m => (.ok (), m)
  | fuel + 1, m =>
    match m.state.todo with
    | [] => (.ok (), m)
    | action :: todo =>
      match { m.state with todo }.act action with
      | .error e => (.error (.chain e), m)
      | .ok state =>
        let m := { m with state }
        if action = .rest then
          run fuel (m.takeOver (m.handOver.rest site state.config.interval))
        else run fuel m

/-- How long a game may take to reach the last block. -/
def settleTimeout : Duration := .ofSecs 10

/-- Waits for one game after the other. -/
def settleAll (tip : Tip) : List String → Moment ν τ → Except Failure Unit × Moment ν τ
  | [], m => (.ok (), m)
  | game :: rest, m =>
    let (waited, ensemble) := m.handOver.waitFor site game
      (fun status => status = ⟨.synced, some tip⟩) settleTimeout
    let m := m.takeOver ensemble
    match waited with
    | .status _ => settleAll tip rest m
    | .gone => (.error (.stopped game tip), m)
    | .timedOut => (.error (.notReached game tip), m)

/-- The whole simulation against a daemon. -/
def runAll (m : Moment ν τ) : Except Failure Unit × Moment ν τ :=
  match run Worker.patience m with
  | (.error e, m) => (.error e, m)
  | (.ok (), m) => settleAll m.state.world.chain.tip games m

/-- What a simulation leaves behind. -/
structure Report where
  result : Except Failure Unit
  /-- Nanoseconds it took. -/
  elapsed : Nat
  /-- The last status of every game. -/
  statuses : List (String × Option Status)
  world : World MemoryStore MemoryStore
  /-- Everything that was published. -/
  messages : List Frames

/-- Why there is no report: nothing can be heard at the endpoint, or the daemon could not be built, or
could not go on. -/
inductive Abort
  | connect (e : ConnectError)
  | build (e : BuildFailure)
  | worker (h : WorkerHalt Halt)

/-- A simulation from the beginning to the end of its daemon, with stores in memory and a socket that
hears everything. -/
def perform (config : SimulationConfig) (daemonConfig : DaemonConfig) : Except Abort Report :=
  let world := World.start config.network MemoryStore.empty MemoryStore.empty
  match world.bus.connect daemonConfig.endpoint with
  | .error e => .error (.connect e)
  | .ok (tap, bus) =>
    let world := { world with bus := bus.subscribe tap [] }
    match (Ensemble.start world).build site daemonConfig true (some source)
        (registrations MemoryStore.store MemoryStore.store) with
    | (.error e, _) => .error (.build e)
    | (.ok (), ensemble) =>
      let (result, m) :=
        runAll ⟨start config ensemble.world (.start daemonConfig.endpoint), ensemble⟩
      let statuses := games.map fun game => (game, m.ensemble.status? game)
      match m.handOver.shutdown site with
      | (.error h, _) => .error (.worker h)
      | (.ok (), ensemble) =>
        let messages := ((ensemble.world.bus.socket? tap).map Socket.queue).getD []
        .ok ⟨result, m.state.world.now, statuses, ensemble.world, messages⟩

end Simulation

end ChainFollower
