import ChainFollower.Notify.Subscriber

namespace ChainFollower

namespace Rehearsal

inductive Heard
  | started (name : String)
  | notified (name : String) (n : Notification)
  /-- A listener is done with a notification after a rest. -/
  | finished (name : String) (seq : UInt32)

/-- A listener that tells what it hears. After a notification it rests, or breaks down. -/
structure Probe where
  name : String
  rest : Option Duration
  breaks : Bool

def Probe.after (p : Probe) : Heard → Progress Heard Unit String
  | .notified _ n =>
    if p.breaks then .halted ("listener " ++ p.name ++ " panicked")
    else match p.rest with
      | some d => .rests d (.finished p.name n.seq)
      | none => .returned ()
  | _ => .returned ()

instance : Listener Probe where
  Call := Heard
  Result := Unit
  Halt := String
  Request := Heard
  Reply _ := Unit
  started p := (p, .asks (.started p.name))
  notified p n := (p, .asks (.notified p.name n))
  request _ heard := heard
  proceed p heard _ := (p, p.after heard)

/-- Where the worker and its probes are. -/
structure Hall where
  bus : Bus
  /-- Every socket is closed. -/
  closed : Bool
  /-- What has been told, the last first. -/
  heard : List Heard

def Hall.surroundings : Surroundings Probe Hall where
  answer _ heard h := ((), { h with heard := heard :: h.heard })
  receive socket h :=
    if h.closed then (.closed, h)
    else within Hall.bus (fun bus h => { h with bus }) (Receipt.take socket) h

/-- A subscriber that brings notifications to listeners which tell what they hear. -/
structure Audience where
  subscriber : Subscriber Probe
  hall : Hall
  publisher : Publisher
  /-- Nanoseconds since the beginning. -/
  now : Nat
  /-- The subscriber is gone, and its worker will stop. -/
  abandoned : Bool

namespace Audience

def start (suppressed : Bool) (endpoint : String) : Audience :=
  ⟨.start suppressed, ⟨.empty, false, []⟩, .start endpoint, 0, false⟩

/-- The socket of a worker that nobody stops goes with the worker. -/
def release (a : Audience) : Audience :=
  match a.subscriber.worker with
  | none => a
  | some w =>
    if a.abandoned && w.finished then { a with hall.bus := a.hall.bus.drop w.socket } else a

def work (a : Audience) (act : Worker.Moment Probe Hall → Worker.Moment Probe Hall) : Audience :=
  let (subscriber, now, hall) :=
    a.subscriber.work Hall.bus (fun bus h => { h with bus }) a.now a.hall act
  release { a with subscriber, now, hall }

/-- Lets the worker run until it waits. -/
def settle (a : Audience) : Audience := a.work (Worker.settle Hall.surroundings)

/-- Lets a span of time pass. -/
def advance (a : Audience) (d : Duration) : Audience :=
  { a.work (Worker.runFor Hall.surroundings d.lasting) with now := a.now + d.lasting }

def launch (a : Audience) : Except StartError Audience :=
  (a.subscriber.launch a.hall.bus).map fun (subscriber, bus) =>
    { a with subscriber, hall.bus := bus }

/-- Why a subscriber cannot be stopped well. -/
inductive StopFailure
  | misuse (m : Misuse)
  | worker (h : WorkerHalt String)

def StopFailure.message : StopFailure → String
  | .misuse m => m.message
  | .worker h => h.message id

def stop (a : Audience) : Except StopFailure Audience × Hall :=
  if a.subscriber.isStarted then
    let a := settle { a with subscriber := a.subscriber.signalStop }
    match a.subscriber.collect a.hall.bus with
    | (.ok (), subscriber, bus) => (.ok { a with subscriber, hall.bus := bus }, a.hall)
    | (.error h, _, _) => (.error (.worker h), a.hall)
  else (.error (.misuse .notRunning), a.hall)

/-- Leaves the subscriber; its worker stops when it next waits. -/
def abandon (a : Audience) : Audience :=
  release { a with subscriber := a.subscriber.signalStop, abandoned := true }

/-- What has been heard since this was last asked. Starts at the front are in the order of the
names. -/
def takeHeard (a : Audience) : List Heard × Audience :=
  let isStart : Heard → Bool
    | .started _ => true
    | _ => false
  let name : Heard → String
    | .started name | .notified name _ | .finished name _ => name
  let all := a.hall.heard.reverse
  let starts := all.takeWhile isStart
  ((starts.mergeSort fun a b => name a ≤ name b) ++ all.dropWhile isStart,
    { a with hall.heard := [] })

end Audience

end Rehearsal

end ChainFollower
