import ChainFollower.Config
import ChainFollower.Notify.Subscriber
import ChainFollower.Sync.Run

namespace ChainFollower

/-- A game to be run, with a store of its own or in the daemon's place for stores. -/
structure Registration (σ : Type) where
  game : Game σ
  store : Option (Store σ)

/-- The place a daemon runs in. -/
structure Site (σ : Type) where
  bus : σ → Bus
  setBus : Bus → σ → σ
  /-- Nanoseconds since the beginning. -/
  now : σ → Nat
  setNow : Nat → σ → σ
  /-- Opens the store of a game at a path, or in memory where there is none. -/
  openStore : Option String → σ → Except StoreError (Store σ) × σ

/-- What lies around the place where a daemon is built, and goes on while the build rests. -/
structure Grounds (σ τ : Type) where
  place : τ → σ
  setPlace : σ → τ → τ
  /-- Lets time pass. -/
  rest : Duration → τ → τ

/-- Makes a call on the place. -/
def Grounds.call {σ τ α : Type} (grounds : Grounds σ τ) (f : σ → α × σ) (t : τ) : α × τ :=
  within grounds.place grounds.setPlace f t

/-- The store a game brings, or the one that is opened for it. -/
def Site.storeFor {σ : Type} (site : Site σ) (config : DaemonConfig) (game : String)
    (r : Registration σ) (s : σ) : Except StoreError (Store σ) × σ :=
  match r.store with
  | some store => (.ok store, s)
  | none => site.openStore (config.gameDir game) s

inductive DaemonError
  | noGames
  | noChain
  | noTransport
  | duplicateGame (game : String)
  | names (e : GameError)
  | storage (game : String) (e : StoreError)
  | initialization (game : String) (e : SyncError)
  | subscriber (e : StartError)

def DaemonError.message : DaemonError → String
  | .noGames => "no games registered"
  | .noChain => "chain source not set"
  | .noTransport => "transport not set"
  | .duplicateGame game => "game " ++ game ++ " is registered twice"
  | .names e => "failed to query game names: " ++ e.message
  | .storage game e => "failed to open storage for game " ++ game ++ ": " ++ e.message
  | .initialization game e => "failed to initialize game " ++ game ++ ": " ++ e.message
  | .subscriber e => e.message

/-- Why no daemon comes of a build. -/
inductive BuildFailure
  | error (e : DaemonError)
  | halted (h : Halt)

/-- A follower with what answers it. -/
structure Hosted (σ : Type) where
  follower : Follower
  host : Host σ

def Hosted.step {σ : Type} (h : Hosted σ) (step : Follower × Follower.Next) :
    Hosted σ × Follower.Next :=
  ({ h with follower := step.1 }, step.2)

instance (σ : Type) : Listener (Hosted σ) where
  Call := Call
  Result := Follower.Outcome
  Halt := Halt
  Request := Request
  Reply := Request.Reply
  started h := h.step h.follower.started
  notified h n := h.step (h.follower.notified n)
  request h := h.follower.request
  proceed h call reply := h.step (h.follower.proceed call reply)

/-- A daemon follows a chain with any number of games: it opens their stores, initializes their followers,
and then lets a subscriber bring them notifications. -/
structure Daemon (σ : Type) where
  /-- The games in the order of their registration. -/
  games : List GameNames
  subscriber : Subscriber (Hosted σ)

namespace Daemon

variable {σ τ : Type}

/-- The follower of one game, initialized. -/
def openGame (site : Site σ) (grounds : Grounds σ τ) (config : DaemonConfig) (source : Source σ)
    (taken : List String) (r : Registration σ) (t : τ) :
    Except BuildFailure (GameNames × Hosted σ) × τ :=
  match grounds.call r.game.names t with
  | (.error (.refused e), t) => (.error (.error (.names e)), t)
  | (.error (.broken b), t) => (.error (.halted (.breach b)), t)
  | (.ok names, t) =>
    if taken.contains names.id then (.error (.error (.duplicateGame names.id)), t)
    else
      match grounds.call (site.storeFor config names.id r) t with
      | (.error e, t) => (.error (.error (.storage names.id e)), t)
      | (.ok store, t) =>
        let host : Host σ := ⟨source, store, r.game⟩
        let f := Follower.start names.id config.retry config.pruning
        match Follower.run (fun _ r => grounds.call (host.answer r)) grounds.rest
            Follower.patience f.initialized t with
        | ((f, .returned (.ok ())), t) => (.ok (names, ⟨f, host⟩), t)
        | ((_, .returned (.error e)), t) => (.error (.error (.initialization names.id e)), t)
        | ((_, .halted h), t) => (.error (.halted h), t)
        | ((f, .unfinished), t) =>
          (.error (.error (.initialization names.id (.notInitialized f.game))), t)

/-- The games one after the other, those before them in `daemon`. -/
def openGames (site : Site σ) (grounds : Grounds σ τ) (config : DaemonConfig) (source : Source σ) :
    List (Registration σ) → Daemon σ → τ → Except BuildFailure (Daemon σ) × τ
  | [], daemon, t => (.ok daemon, t)
  | r :: rest, daemon, t =>
    match openGame site grounds config source (daemon.games.map GameNames.id) r t with
    | (.error e, t) => (.error e, t)
    | (.ok (names, hosted), t) =>
      let listeners := Subscriber.enlist daemon.subscriber.listeners names.id hosted
      openGames site grounds config source rest
        ⟨daemon.games ++ [names], { daemon.subscriber with listeners }⟩ t

/-- Starts the subscriber. -/
def launch (site : Site σ) (config : DaemonConfig) (daemon : Daemon σ) (s : σ) :
    Except BuildFailure (Daemon σ) × σ :=
  let subscriber := { daemon.subscriber with endpoint := some config.endpoint }
  match subscriber.launch (site.bus s) with
  | .error e => (.error (.error (.subscriber e)), s)
  | .ok (subscriber, bus) => (.ok { daemon with subscriber }, site.setBus bus s)

/-- Initializes every game and starts the subscriber. -/
def build (site : Site σ) (grounds : Grounds σ τ) (config : DaemonConfig) (transport : Bool)
    (source : Option (Source σ)) (registrations : List (Registration σ)) (t : τ) :
    Except BuildFailure (Daemon σ) × τ :=
  if !transport then (.error (.error .noTransport), t)
  else
    match source with
    | none => (.error (.error .noChain), t)
    | some source =>
      if registrations.isEmpty then (.error (.error .noGames), t)
      else
        match openGames site grounds config source registrations
            ⟨[], Subscriber.start config.suppressed⟩ t with
        | (.error e, t) => (.error e, t)
        | (.ok daemon, t) => grounds.call (daemon.launch site config) t

/-- What surrounds the worker of a daemon. -/
def surroundings (site : Site σ) : Surroundings (Hosted σ) σ where
  answer h r s := h.host.answer r s
  receive socket s := within site.bus site.setBus (Receipt.take socket) s

def worker? (d : Daemon σ) : Option (Worker (Hosted σ)) := d.subscriber.worker

def listeners (d : Daemon σ) : List (String × List (Hosted σ)) :=
  match d.worker? with
  | some w => w.listeners
  | none => d.subscriber.listeners

/-- The status of a game as it was last published. -/
def status? (d : Daemon σ) (game : String) : Option Status :=
  ((d.listeners.lookup game).bind List.head?).map fun h => h.follower.watch.last

def isRunning (d : Daemon σ) : Bool := d.subscriber.isRunning

/-- A turn of the worker; says whether it was too short for the worker to come to a wait. -/
def turn (site : Site σ) (d : Daemon σ) (s : σ) : Bool × Daemon σ × σ :=
  match d.worker? with
  | none => (false, d, s)
  | some w =>
    let (short, w, s) := w.turn (surroundings site) (site.now s) s
    (short, { d with subscriber := { d.subscriber with worker := some w } },
      site.setBus (Subscriber.release w (site.bus s)) s)

end Daemon

end ChainFollower
