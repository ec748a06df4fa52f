import ChainFollower.Daemon

namespace ChainFollower

/-- Daemons in one place, whose workers take turns. A turn ends where the worker waits or rests, and at the
latest when it has been long enough. Time passes only when nobody can go on. Whoever builds the daemons
and looks on takes turns with them in the same way. -/
structure Ensemble (σ : Type) where
  world : σ
  /-- The daemons and the sockets of their workers, in the order in which they were built. -/
  daemons : List (SocketId × Daemon σ)
  /-- The daemon that leads. The others were replaced, and leave when they have finished. -/
  leading : Option SocketId
  /-- The workers that can go on, in the order of their turns. -/
  ready : List SocketId
  /-- The workers whose turn in this round was too short, the last first. -/
  pending : List SocketId
  /-- The workers that rest, in the order in which they began to. -/
  resting : List SocketId
  /-- How many rests of no length whoever looks on can still take in one turn. -/
  left : Nat

namespace Ensemble

variable {σ : Type}

def start (world : σ) : Ensemble σ := ⟨world, [], none, [], [], [], Worker.turnLength⟩

def leader? (e : Ensemble σ) : Option (Daemon σ) := e.leading.bind fun id => e.daemons.lookup id

def worker? (e : Ensemble σ) (id : SocketId) : Option (Worker (Hosted σ)) :=
  (e.daemons.lookup id).bind Daemon.worker?

/-- When the rest of a worker ends. -/
def due? (e : Ensemble σ) (id : SocketId) : Option Nat := (e.worker? id).bind Worker.due?

/-- Whether there is a leader that has not finished. -/
def isRunning (e : Ensemble σ) : Bool := e.leader?.any Daemon.isRunning

/-- The status of one of the leader's games as it was last published. -/
def status? (e : Ensemble σ) (game : String) : Option Status :=
  e.leader?.bind fun d => d.status? game

def setDaemon (e : Ensemble σ) (id : SocketId) (d : Daemon σ) : Ensemble σ :=
  { e with daemons := e.daemons.map fun (i, other) => if i = id then (i, d) else (i, other) }

/-- A daemon leaves, and its socket with it. -/
def dismiss (site : Site σ) (e : Ensemble σ) (id : SocketId) : Ensemble σ :=
  { e with
    world := site.setBus ((site.bus e.world).drop id) e.world
    daemons := e.daemons.filter fun entry => entry.1 != id
    leading := e.leading.filter fun i => i != id
    ready := e.ready.filter fun i => i != id
    resting := e.resting.filter fun i => i != id }

/-- A worker that waits for messages gets ready, behind those that are. -/
def wake (e : Ensemble σ) (id : SocketId) : Ensemble σ :=
  if (e.worker? id).any Worker.isFree && !e.ready.contains id then
    { e with ready := e.ready ++ [id] }
  else e

/-- Every worker with messages in its queue wakes up. -/
def wakeReceivers (site : Site σ) (e : Ensemble σ) : Ensemble σ :=
  (site.bus e.world).sockets.foldl (fun e s => if s.queue.isEmpty then e else e.wake s.id) e

/-- Tells a worker to stop. -/
def signalStop (e : Ensemble σ) (id : SocketId) : Ensemble σ :=
  match e.daemons.lookup id with
  | none => e
  | some d => (e.setDaemon id { d with subscriber := d.subscriber.signalStop }).wake id

/-- A daemon that does not lead any more stops, and leaves at once if it has finished. -/
def retire (site : Site σ) (e : Ensemble σ) (id : SocketId) : Ensemble σ :=
  if (e.worker? id).any Worker.finished then e.dismiss site id else e.signalStop id

/-- A new daemon leads, and the one before it retires. The worker of the new one has its turn behind
those that are ready, but before the other gets ready. -/
def lead (site : Site σ) (e : Ensemble σ) (d : Daemon σ) : Ensemble σ :=
  match d.worker? with
  | none => e
  | some w =>
    let joined := { e with
      daemons := e.daemons ++ [(w.socket, d)]
      leading := some w.socket
      ready := e.ready ++ [w.socket] }
    e.leading.elim joined (joined.retire site)

/-- The turn of one worker. -/
def turn (site : Site σ) (e : Ensemble σ) (id : SocketId) : Ensemble σ :=
  match e.daemons.lookup id with
  | none => e
  | some d =>
    let (short, d, world) := d.turn site e.world
    let e := { e with world }.setDaemon id d
    if !d.isRunning && e.leading != some id then e.dismiss site id
    else if short then { e with pending := id :: e.pending }
    else if (e.due? id).isSome then { e with resting := e.resting ++ [id] }
    else e

/-- How many turns there are to a round. -/
def roundLength : Nat := 61

/-- One turn for those who can go on. Those whose turn was too short get ready again. -/
def round (site : Site σ) (e : Ensemble σ) : Ensemble σ :=
  let e := (e.ready.take roundLength).foldl (turn site) { e with ready := e.ready.drop roundLength }
  { e with ready := e.ready ++ e.pending, pending := [] }

/-- The end of the rest that ends first. -/
def nextDue? (e : Ensemble σ) : Option Nat := (e.resting.filterMap e.due?).min?

/-- At a time that is not later than any end of a rest: those who have rested get ready. -/
def advanceTo (site : Site σ) (e : Ensemble σ) (now : Nat) : Ensemble σ :=
  let rested (id : SocketId) : Bool := (e.due? id).all (· ≤ now)
  { e with
    world := site.setNow now e.world
    ready := e.ready ++ e.resting.filter rested
    resting := e.resting.filter fun id => !rested id }

/-- Goes on until `done` holds or nobody can go on any more, or until the deadline where there is one.
Who rests until the deadline has no turn before it is over. -/
def run (site : Site σ) (deadline : Option Nat) (done : Ensemble σ → Bool) :
    Nat → Ensemble σ → Ensemble σ
  | 0, e => e
  | fuel + 1, e =>
    if done e then e
    else if !e.ready.isEmpty then run site deadline done fuel (e.round site)
    else
      match e.nextDue?.filter fun due => deadline.all (due < ·) with
      | some due => run site deadline done fuel (e.advanceTo site due)
      | none => deadline.elim e (e.advanceTo site)

/-- Until every worker waits or has finished. -/
def settle (site : Site σ) (e : Ensemble σ) : Ensemble σ :=
  e.run site none (fun _ => false) Worker.patience

/-- Lets time pass. A rest of no length is over before anybody has a turn, unless a turn's worth of
them has been taken. -/
def rest (site : Site σ) (d : Duration) (e : Ensemble σ) : Ensemble σ :=
  if d.lasting ≠ 0 then
    let e := e.run site (some (site.now e.world + d.lasting)) (fun _ => false) Worker.patience
    { e with left := Worker.turnLength - 1 }
  else if e.left ≠ 0 then { e with left := e.left - 1 }
  else { e.round site with left := Worker.turnLength - 1 }

/-- The others go on while a daemon is built and rests. -/
def grounds (site : Site σ) : Grounds σ (Ensemble σ) :=
  ⟨Ensemble.world, fun world e => { e with world }, rest site⟩

/-- Builds a daemon, which leads from then on. -/
def build (site : Site σ) (config : DaemonConfig) (transport : Bool) (source : Option (Source σ))
    (registrations : List (Registration σ)) (e : Ensemble σ) :
    Except BuildFailure Unit × Ensemble σ :=
  match Daemon.build site (grounds site) config transport source registrations
      { e with left := Worker.turnLength } with
  | (.error error, e) => (.error error, e)
  | (.ok daemon, e) => (.ok (), e.lead site daemon)

/-- How a wait for a status ends. -/
inductive Waited
  | status (s : Status)
  /-- There is no such game, or its worker cannot go on. -/
  | gone
  | timedOut

/-- Waits until the status of one of the leader's games is as wanted, for a span of time at most.
Nobody has a turn where it is as wanted already. -/
def waitFor (site : Site σ) (game : String) (wanted : Status → Bool) (patience : Duration)
    (e : Ensemble σ) : Waited × Ensemble σ :=
  match e.status? game with
  | none => (.gone, e)
  | some _ =>
    let e := e.run site (some (site.now e.world + patience.lasting))
      (fun e => (e.status? game).any wanted || !e.isRunning) Worker.patience
    match (e.status? game).filter wanted with
    | some status => (.status status, e)
    | none => (if e.isRunning then .timedOut else .gone, e)

/-- Stops the leader, if there is one, and waits for its end. -/
def shutdown (site : Site σ) (e : Ensemble σ) : Except (WorkerHalt Halt) Unit × Ensemble σ :=
  match e.leading with
  | none => (.ok (), e)
  | some id =>
    let e := (e.signalStop id).run site none (fun e => !e.isRunning) Worker.patience
    (e.leader?.elim (.ok ()) fun d => (d.subscriber.collect (site.bus e.world)).1,
      e.dismiss site id)

end Ensemble

end ChainFollower
