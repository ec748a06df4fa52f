import ChainFollower.Notify.Worker

namespace ChainFollower

/-- A subscriber gathers listeners, then hands them to a worker of its own and gets them back when the
worker is stopped. While there is a worker, neither endpoint nor listeners can be changed. -/
structure Subscriber (L : Type) [Listener L] where
  suppressed : Bool
  endpoint : Option String
  /-- The listeners of every game, in the order in which they were added. -/
  listeners : List (String × List L)
  tracker : SequenceTracker
  worker : Option (Worker L)

/-- A call that the state of a subscriber does not allow. -/
inductive Misuse
  | endpointWhileRunning
  | listenerWhileRunning
  | alreadyRunning
  | noEndpoint
  | notRunning
  deriving DecidableEq, Repr

def Misuse.message : Misuse → String
  | .endpointWhileRunning => "cannot change the endpoint of a running subscriber"
  | .listenerWhileRunning => "cannot add listeners to a running subscriber"
  | .alreadyRunning => "subscriber is already running"
  | .noEndpoint => "subscriber endpoint must be set before starting"
  | .notRunning => "subscriber is not running"

inductive StartError
  | misuse (m : Misuse)
  | transport (e : ConnectError)
  deriving DecidableEq, Repr

def StartError.message : StartError → String
  | .misuse m => m.message
  | .transport e => "transport error: " ++ e.message

namespace Subscriber

variable {L : Type} [Listener L]

def start (suppressed : Bool) : Subscriber L := ⟨suppressed, none, [], .empty, none⟩

def isStarted (s : Subscriber L) : Bool := s.worker.isSome

/-- Whether there is a worker that has not finished. -/
def isRunning (s : Subscriber L) : Bool := s.worker.any fun w => !w.finished

def setEndpoint (s : Subscriber L) (endpoint : String) : Except Misuse (Subscriber L) :=
  if s.isStarted then .error .endpointWhileRunning
  else .ok { s with endpoint := some endpoint }

/-- Adds a listener behind those of its game. -/
def enlist (listeners : List (String × List L)) (game : String) (l : L) :
    List (String × List L) :=
  match listeners with
  | [] => [(game, [l])]
  | (g, ls) :: rest =>
    if g = game then (g, ls ++ [l]) :: rest else (g, ls) :: enlist rest game l

def addListener (s : Subscriber L) (game : String) (l : L) : Except Misuse (Subscriber L) :=
  if s.isStarted then .error .listenerWhileRunning
  else .ok { s with listeners := enlist s.listeners game l }

/-- Both topics of every game. -/
def topics (games : List String) : List String :=
  games.flatMap fun game => [Topic.text .attach game, Topic.text .detach game]

/-- Connects and hands everything to a worker, which has not begun yet. -/
def launch (s : Subscriber L) (bus : Bus) : Except StartError (Subscriber L × Bus) :=
  if s.isStarted then .error (.misuse .alreadyRunning)
  else
    match s.endpoint with
    | none => .error (.misuse .noEndpoint)
    | some endpoint =>
      match bus.connect endpoint with
      | .error e => .error (.transport e)
      | .ok (socket, bus) =>
        let bus := (topics (s.listeners.map Prod.fst)).foldl
          (fun bus topic => bus.subscribe socket (Utf8.encode topic)) bus
        .ok ({ s with
            listeners := []
            tracker := .empty
            worker := some (.start socket s.listeners s.tracker s.suppressed) },
          bus)

/-- The bus without the socket of a worker that cannot go on. -/
def release (w : Worker L) (bus : Bus) : Bus :=
  match w.activity with
  | .halted _ => bus.drop w.socket
  | _ => bus

/-- Lets the worker do something from the time `now` on. -/
def work {σ : Type} (s : Subscriber L) (bus : σ → Bus) (setBus : Bus → σ → σ) (now : Nat)
    (world : σ) (act : Worker.Moment L σ → Worker.Moment L σ) : Subscriber L × Nat × σ :=
  match s.worker with
  | none => (s, now, world)
  | some worker =>
    let m := act ⟨worker, world, now⟩
    ({ s with worker := some m.worker }, m.now,
      setBus (release m.worker (bus m.world)) m.world)

/-- Tells the worker to stop. -/
def signalStop (s : Subscriber L) : Subscriber L :=
  { s with worker := s.worker.map fun w => { w with stopping := true } }

/-- Takes back what a worker has when it has finished; nothing comes back from one that could not go
on. Its socket is dropped. -/
def collect (s : Subscriber L) (bus : Bus) :
    Except (WorkerHalt (Listener.Halt L)) Unit × Subscriber L × Bus :=
  match s.worker with
  | none => (.ok (), s, bus)
  | some w =>
    match w.activity with
    | .halted h => (.error h, { s with worker := none }, bus.drop w.socket)
    | _ =>
      (.ok (), { s with listeners := w.listeners, tracker := w.tracker, worker := none },
        bus.drop w.socket)

def last? (s : Subscriber L) (c : Channel) : Option UInt32 := s.tracker.last? c

end Subscriber

end ChainFollower
