import ChainFollower.Json.Printer
import ChainFollower.Notify.Topic

namespace ChainFollower

abbrev Frames := List Bytes

abbrev SocketId := Nat

structure Socket where
  id : SocketId
  endpoint : String
  /-- Beginnings of first frames that the socket is subscribed to. -/
  subscriptions : List Bytes
  /-- Messages not yet taken, the oldest first. -/
  queue : List Frames
  deriving DecidableEq, Repr

/-- A message without frames matches nothing. -/
def Socket.accepts (s : Socket) : Frames → Bool
  | [] => false
  | first :: _ => s.subscriptions.any fun start => start.isPrefixOf first

/-- A message reaches every socket that is connected to its endpoint at that moment; a socket then passes over
what it is not subscribed to, when it takes messages from its queue. -/
structure Bus where
  /-- The sockets that are connected, in the order in which they connected. -/
  sockets : List Socket
  nextId : SocketId
  deriving Repr

inductive ConnectError
  | emptyEndpoint
  deriving DecidableEq, Repr

def ConnectError.message : ConnectError → String
  | .emptyEndpoint => "failed to connect to : empty endpoint"

namespace Bus

def empty : Bus := ⟨[], 0⟩

def connect (b : Bus) (endpoint : String) : Except ConnectError (SocketId × Bus) :=
  if endpoint.isEmpty then .error .emptyEndpoint
  else .ok (b.nextId, ⟨b.sockets ++ [⟨b.nextId, endpoint, [], []⟩], b.nextId + 1⟩)

def socket? (b : Bus) (id : SocketId) : Option Socket := b.sockets.find? fun s => s.id == id

def modify (b : Bus) (id : SocketId) (f : Socket → Socket) : Bus :=
  { b with sockets := b.sockets.map fun s => if s.id = id then f s else s }

def subscribe (b : Bus) (id : SocketId) (start : Bytes) : Bus :=
  b.modify id fun s => { s with subscriptions := s.subscriptions ++ [start] }

/-- Delivers a message and counts the sockets that got it. -/
def publish (b : Bus) (endpoint : String) (message : Frames) : Nat × Bus :=
  (b.sockets.countP fun s => s.endpoint == endpoint,
    { b with sockets := b.sockets.map fun s =>
        if s.endpoint = endpoint then { s with queue := s.queue ++ [message] } else s })

/-- The oldest message in the queue of a socket, and the bus without it. -/
def pop? (b : Bus) (id : SocketId) : Option (Frames × Bus) :=
  match b.socket? id with
  | none => none
  | some s =>
    match s.queue with
    | [] => none
    | m :: rest => some (m, b.modify id fun s => { s with queue := rest })

/-- Whether a socket is subscribed to a message. -/
def accepts (b : Bus) (id : SocketId) (m : Frames) : Bool := (b.socket? id).any fun s => s.accepts m

/-- Takes the next message a socket is subscribed to; those before it are gone. -/
def receive (b : Bus) (id : SocketId) : Option Frames × Bus :=
  match b.socket? id with
  | none => (none, b)
  | some s =>
    match s.queue.dropWhile fun m => !s.accepts m with
    | [] => (none, b.modify id fun s => { s with queue := [] })
    | m :: rest => (some m, b.modify id fun s => { s with queue := rest })

/-- Forgets a socket that is closed. To do so with the next message on its endpoint, before the sockets that get
it are counted, would be the same: nobody takes from its queue in the meantime. -/
def drop (b : Bus) (id : SocketId) : Bus :=
  { b with sockets := b.sockets.filter fun s => s.id != id }

end Bus

/-- Numbers the messages of every topic from zero. -/
structure Publisher where
  endpoint : String
  /-- The next number of every topic that has had one. -/
  next : List (String × UInt32)
  deriving Repr

namespace Publisher

def start (endpoint : String) : Publisher := ⟨endpoint, []⟩

def next? (p : Publisher) (topic : String) : UInt32 := (p.next.lookup topic).getD 0

/-- Takes `count` numbers of a channel and returns the first. -/
def take (p : Publisher) (kind : EventKind) (game : String) (count : UInt32) :
    UInt32 × Publisher :=
  let topic := Topic.text kind game
  let seq := p.next? topic
  (seq, { p with next := (topic, seq + count) :: p.next.filter fun entry => entry.1 != topic })

/-- Uses up numbers as if messages had been sent and lost. -/
def skip (p : Publisher) (kind : EventKind) (game : String) (count : UInt32) : Publisher :=
  (p.take kind game count).2

/-- Topic, payload and number as frames. -/
def frames (kind : EventKind) (game : String) (payload : Json) (seq : UInt32) : Frames :=
  [Utf8.encode (Topic.text kind game), payload.bytes, Bytes.ofUInt32 seq]

/-- Publishes with a given number; the numbering goes on as if it had not happened. -/
def publishAs (p : Publisher) (b : Bus) (kind : EventKind) (game : String) (payload : Json)
    (seq : UInt32) : Nat × Bus :=
  b.publish p.endpoint (frames kind game payload seq)

/-- Publishes with the next number of the channel. -/
def publish (p : Publisher) (b : Bus) (kind : EventKind) (game : String) (payload : Json) :
    UInt32 × Publisher × Bus :=
  let (seq, p) := p.take kind game 1
  (seq, p, (p.publishAs b kind game payload seq).2)

end Publisher

end ChainFollower
