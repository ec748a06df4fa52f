import ChainFollower.Json.Parser
import ChainFollower.Notify.Bus
import ChainFollower.Notify.Notification
import ChainFollower.Notify.Sequence
import ChainFollower.Sync.Follower

namespace ChainFollower

/-- What can listen to notifications: its calls are values that wait for replies. -/
class Listener (L : Type) where
  Call : Type
  Result : Type
  Halt : Type
  Request : Type
  Reply : Request → Type
  started : L → L × Progress Call Result Halt
  notified : L → Notification → L × Progress Call Result Halt
  request : L → Call → Request
  proceed : (l : L) → (call : Call) → Reply (request l call) → L × Progress Call Result Halt

/-- A message as it must be: topic, payload, and a number in four bytes. -/
structure Message where
  topic : Bytes
  payload : Bytes
  seq : UInt32

/-- What the worker cannot go on after. -/
inductive WorkerHalt (H : Type)
  | frameCount (count : Nat)
  | sequenceSize (size : Nat)
  | badPayload
  | listener (h : H)

def WorkerHalt.message {H : Type} (listener : H → String) : WorkerHalt H → String
  | .frameCount count => "expected exactly three message parts, got " ++ toString count
  | .sequenceSize size => "sequence number should have size 4, got " ++ toString size ++ " bytes"
  | .badPayload => "error parsing notification payload"
  | .listener h => listener h

def Message.ofFrames {H : Type} : Frames → Except (WorkerHalt H) Message
  | [topic, payload, seq] =>
    match Bytes.toUInt32? seq with
    | some n => .ok ⟨topic, payload, n⟩
    | none => .error (.sequenceSize seq.length)
  | frames => .error (.frameCount frames.length)

/-- A listener among those of its game. -/
structure Seat where
  game : String
  index : Nat
  deriving DecidableEq, Repr

/-- A call that is due. -/
inductive Errand
  | started (seat : Seat)
  | notified (seat : Seat) (n : Notification)

/-- What the worker is busy with. -/
inductive Activity (C H : Type)
  /-- Nothing but the errands that are due. -/
  | free
  /-- A call that waits for a reply. -/
  | asking (seat : Seat) (call : C)
  /-- A call that rests until a time. -/
  | resting (seat : Seat) (until_ : Nat) (call : C)
  | exited
  | halted (h : WorkerHalt H)

/-- The worker calls the listeners of the game that a message concerns one after the other, after it has told all
of them that it has started. It does nothing else while a call waits for a reply or for some time to pass. It
stops between two messages when it is told to, and before the next message when its socket is closed. -/
structure Worker (L : Type) [Listener L] where
  socket : SocketId
  listeners : List (String × List L)
  tracker : SequenceTracker
  /-- Notifications are counted but not passed on. -/
  suppressed : Bool
  stopping : Bool
  errands : List Errand
  activity : Activity (Listener.Call L) (Listener.Halt L)

/-- What a socket has for the worker. -/
inductive Receipt
  | message (m : Frames)
  /-- A message that the socket is not subscribed to, which is passed over. -/
  | other
  | nothing
  | closed

/-- Takes the oldest message of a socket. -/
def Receipt.take (socket : SocketId) (bus : Bus) : Receipt × Bus :=
  match bus.pop? socket with
  | none => (.nothing, bus)
  | some (m, rest) => (if bus.accepts socket m then .message m else .other, rest)

/-- What surrounds a worker: replies to the calls of its listeners, and its socket. -/
structure Surroundings (L : Type) [Listener L] (σ : Type) where
  answer : (l : L) → (r : Listener.Request L) → σ → Listener.Reply r × σ
  receive : SocketId → σ → Receipt × σ

namespace Worker

variable {L : Type} [Listener L] {σ : Type}

/-- The listeners of all games, those of each game in order. -/
def seats (listeners : List (String × List L)) : List Seat :=
  listeners.flatMap fun (game, ls) => (List.range ls.length).map fun index => ⟨game, index⟩

/-- A worker that is about to begin. It is of no matter which game is told first: whatever is proved of a worker
is proved of every order of these calls (`Worker.Reordered`). -/
def start (socket : SocketId) (listeners : List (String × List L)) (tracker : SequenceTracker)
    (suppressed : Bool) : Worker L :=
  { socket, listeners, tracker, suppressed, stopping := false, activity := .free
    errands := if suppressed then [] else (seats listeners).map .started }

def finished (w : Worker L) : Bool :=
  match w.activity with
  | .exited | .halted _ => true
  | _ => false

/-- Whether no call is going on. -/
def isFree (w : Worker L) : Bool :=
  match w.activity with
  | .free => true
  | _ => false

def listener? (w : Worker L) (seat : Seat) : Option L :=
  (w.listeners.lookup seat.game).bind fun ls => ls[seat.index]?

def setListener (w : Worker L) (seat : Seat) (l : L) : Worker L :=
  { w with listeners := w.listeners.map fun (game, ls) =>
      if game = seat.game then (game, ls.set seat.index l) else (game, ls) }

/-- After a step of a call at time `now`. -/
def progressed (w : Worker L) (now : Nat) (seat : Seat)
    (step : L × Progress (Listener.Call L) (Listener.Result L) (Listener.Halt L)) : Worker L :=
  let w := w.setListener seat step.1
  match step.2 with
  | .asks call => { w with activity := .asking seat call }
  | .rests d call => { w with activity := .resting seat (now + d.lasting) call }
  | .returned _ => { w with activity := .free }
  | .halted h => { w with activity := .halted (.listener h) }

def runErrand (w : Worker L) (now : Nat) : Errand → Worker L
  | .started seat =>
    match w.listener? seat with
    | none => w
    | some l => w.progressed now seat (Listener.started l)
  | .notified seat n =>
    match w.listener? seat with
    | none => w
    | some l => w.progressed now seat (Listener.notified l n)

/-- The channel of a message of a registered game; other topics are passed over. -/
def channel? (w : Worker L) (m : Message) : Option Channel := do
  let topic ← Utf8.decode? m.topic
  let (kind, game) ← Topic.parse? topic
  let _ ← w.listeners.lookup game
  return ⟨game, kind⟩

/-- Takes a message: counts it on its channel and makes its calls due. -/
def handle (w : Worker L) (frames : Frames) : Worker L :=
  match Message.ofFrames frames with
  | .error h => { w with activity := .halted h }
  | .ok m =>
    match w.channel? m with
    | none => w
    | some c =>
      match Json.parse? m.payload with
      | none => { w with activity := .halted .badPayload }
      | some payload =>
        let (mismatch, tracker) := w.tracker.annotate c m.seq
        let n : Notification := ⟨c.game, c.kind, payload, m.seq, mismatch⟩
        let ls := (w.listeners.lookup c.game).getD []
        { w with
          tracker
          errands := if w.suppressed then []
            else (List.range ls.length).map fun index => .notified ⟨c.game, index⟩ n }

/-- One step at time `now`; none where the worker waits or has finished. -/
def step? (env : Surroundings L σ) (now : Nat) (w : Worker L) (s : σ) : Option (Worker L × σ) :=
  match w.activity with
  | .exited | .halted _ => none
  | .resting seat due call =>
    if due ≤ now then some ({ w with activity := .asking seat call }, s) else none
  | .asking seat call =>
    match w.listener? seat with
    | none => some ({ w with activity := .free }, s)
    | some l =>
      let (reply, s) := env.answer l (Listener.request l call) s
      some (w.progressed now seat (Listener.proceed l call reply), s)
  | .free =>
    match w.errands with
    | errand :: errands => some ({ w with errands }.runErrand now errand, s)
    | [] =>
      if w.stopping then some ({ w with activity := .exited }, s)
      else
        match env.receive w.socket s with
        | (.message m, s) => some (w.handle m, s)
        | (.other, s) => some (w, s)
        | (.nothing, _) => none
        | (.closed, s) => some ({ w with activity := .exited }, s)

/-- When a worker that waits will go on of itself. -/
def due? (w : Worker L) : Option Nat :=
  match w.activity with
  | .resting _ due _ => some due
  | _ => none

/-- Whether the next step, if there is one, is one of those that a turn counts: it takes a message, or
ends a rest. -/
def isCounted (w : Worker L) : Bool :=
  match w.activity with
  | .resting .. => true
  | .free => w.errands.isEmpty
  | _ => false

/-- How many messages and ends of rests make a turn. Then others go on, and the worker rests. -/
def turnLength : Nat := 128

/-- Steps at time `now` for as long as there are any, of which at most `left` are counted. Says whether
it was `left` that ended them. -/
def steps (env : Surroundings L σ) (now : Nat) : Nat → Nat → Worker L → σ → Bool × Worker L × σ
  | 0, _, w, s => (false, w, s)
  | fuel + 1, left, w, s =>
    if w.isCounted && left == 0 then (true, w, s)
    else
      match step? env now w s with
      | none => (false, w, s)
      | some (next, s) => steps env now fuel (if w.isCounted then left - 1 else left) next s

/-- A worker, what surrounds it, and the time. -/
structure Moment (L : Type) [Listener L] (σ : Type) where
  worker : Worker L
  world : σ
  now : Nat

/-- Steps for as long as there are any that end by `deadline`, or at all where there is none, and for
as long as `done` does not hold where the worker waits. Time passes only while it rests. -/
def run (env : Surroundings L σ) (deadline : Option Nat) (done : Moment L σ → Bool) :
    Nat → Moment L σ → Moment L σ
  | 0, m => m
  | fuel + 1, m =>
    match step? env m.now m.worker m.world with
    | some (worker, world) => run env deadline done fuel { m with worker, world }
    | none =>
      if done m then m
      else
        match due? m.worker with
        | none => m
        | some due =>
          if deadline.all (due < ·) then run env deadline done fuel { m with now := due }
          else m

/-- More steps than any run takes. -/
def patience : Nat := UInt64.size / 4

/-- One turn at time `now`; says whether it was too short for the worker to come to a wait. -/
def turn (w : Worker L) (env : Surroundings L σ) (now : Nat) (s : σ) : Bool × Worker L × σ :=
  steps env now patience turnLength w s

/-- Until the worker waits for a message or has finished. -/
def settle (env : Surroundings L σ) (m : Moment L σ) : Moment L σ :=
  run env none (fun _ => false) patience m

/-- For a span of time. One of no length is over before anything happens. -/
def runFor (env : Surroundings L σ) (nanos : Nat) (m : Moment L σ) : Moment L σ :=
  if nanos = 0 then m
  else
    let deadline := m.now + nanos
    { run env (some deadline) (fun _ => false) patience m with now := deadline }

end Worker

end ChainFollower
