import ChainFollower.Game.Basic
import ChainFollower.Game.Buffer
import ChainFollower.Json.Printer

namespace ChainFollower

/-- What a call reports: how many bytes it wrote, or how many it needs. -/
inductive CallStatus (α : Type)
  | complete (written : α)
  | tooSmall (required : Nat)
  deriving DecidableEq, Repr

structure NamesBuffers where
  id : Buffer
  name : Buffer
  version : Buffer
  deriving DecidableEq, Repr

structure NamesWritten where
  id : Nat
  name : Nat
  version : Nat
  deriving DecidableEq, Repr

structure InitialBuffers where
  state : Buffer
  /-- The block hash as 64 digits. -/
  hash : Buffer
  deriving DecidableEq, Repr

structure InitialWritten where
  state : Nat
  height : UInt64
  deriving DecidableEq, Repr

structure ForwardBuffers where
  state : Buffer
  undo : Buffer
  deriving DecidableEq, Repr

structure ForwardWritten where
  state : Nat
  undo : Nat
  deriving DecidableEq, Repr

/-- Calls over buffers: each takes the network's code, its inputs and its buffers, and gives back the
buffers as it leaves them. Blocks are passed as text. -/
structure BufferedGame (σ : Type) where
  names : NamesBuffers → σ → (CallStatus NamesWritten × NamesBuffers) × σ
  initial : Int → InitialBuffers → σ → (CallStatus InitialWritten × InitialBuffers) × σ
  forward : Int → Bytes → String → ForwardBuffers → σ →
    (CallStatus ForwardWritten × ForwardBuffers) × σ
  /-- State after the block, block, undo data, and the buffer for the state before. -/
  backward : Int → Bytes → String → Bytes → Buffer → σ → (CallStatus Nat × Buffer) × σ

/-- A game behind the adapter: the game's own surroundings and the current buffer size. Every buffer of a call
has that size and holds zeros. The size never shrinks. -/
structure Buffered (σ : Type) where
  inner : σ
  size : Nat

namespace Buffered

variable {σ : Type}

def initialSize : Nat := 1024

/-- The capacity limit of a buffer. A call that would need a larger one fails. -/
def maxSize : Nat := UInt64.size / 2 - 1

def start (inner : σ) : Buffered σ := ⟨inner, initialSize⟩

/-- A game cannot have written more than the buffer holds. -/
def check (buffer : Buffer) (written : Nat) (what : String) : Except GameFailure Unit :=
  if written ≤ buffer.size then .ok () else .error (.broken (.overrun written what buffer.size))

/-- A game has to write UTF-8 where a text is expected. -/
def checkText (buffer : Buffer) (written : Nat) (what : String) : Except GameFailure Unit := do
  check buffer written what
  match Utf8.decode (buffer.sample written) with
  | .ok _ => .ok ()
  | .error e => .error (.refused (.invalidState (what ++ " is not valid UTF-8: " ++ e.message)))

/-- The text in the first `written` bytes of a buffer. -/
def text (buffer : Buffer) (written : Nat) : String :=
  (Utf8.decode? (buffer.take written)).getD ""

/-- Calls with the current size, and for as long as the game asks for more, with the size that it asks for, but
at least twice as large a one. -/
def retry {ω β α : Type} (call : Nat → σ → (CallStatus ω × β) × σ)
    (finish : ω → β → Except GameFailure α) (s : Buffered σ) :
    Except GameFailure α × Buffered σ :=
  if _hs : maxSize < s.size then (.error (.broken .tooLarge), s)
  else
    let ((status, buffers), inner) := call s.size s.inner
    match status with
    | .complete written => (finish written buffers, { s with inner })
    | .tooSmall required =>
      if _hr : required = 0 then (.error (.broken .emptyRequest), { s with inner })
      else retry call finish ⟨inner, max required (2 * s.size)⟩
termination_by maxSize + 1 - s.size
decreasing_by omega

def names (game : BufferedGame σ) : Buffered σ → Except GameFailure GameNames × Buffered σ :=
  retry (fun size s => game.names ⟨.zeros size, .zeros size, .zeros size⟩ s) fun written buffers => do
    checkText buffers.id written.id "game id"
    checkText buffers.name written.name "game name"
    checkText buffers.version written.version "version"
    return ⟨text buffers.id written.id, text buffers.name written.name,
      text buffers.version written.version⟩

/-- The hash that the digits in a buffer denote. -/
def hash? (buffer : Buffer) : Option Hash := (Utf8.decode? buffer.toBytes).bind Hash.ofHex?

def initial (game : BufferedGame σ) (network : Network) :
    Buffered σ → Except GameFailure InitialState × Buffered σ :=
  retry (fun size s => game.initial network.code ⟨.zeros size, .zeros 64⟩ s) fun written buffers => do
    check buffers.state written.state "initial state"
    match hash? buffers.hash with
    | some hash => .ok ⟨buffers.state.take written.state, written.height, hash⟩
    | none => .error (.broken .badInitialHash)

def forward (game : BufferedGame σ) (network : Network) (state : Bytes) (block : Json) :
    Buffered σ → Except GameFailure ForwardStep × Buffered σ :=
  let blockText := block.text
  retry (fun size s => game.forward network.code state blockText ⟨.zeros size, .zeros size⟩ s)
    fun written buffers => do
      check buffers.state written.state "new state"
      check buffers.undo written.undo "undo data"
      return ⟨buffers.state.take written.state, buffers.undo.take written.undo⟩

def backward (game : BufferedGame σ) (network : Network) (state : Bytes) (block : Json)
    (undo : Bytes) : Buffered σ → Except GameFailure Bytes × Buffered σ :=
  let blockText := block.text
  retry (fun size s => game.backward network.code state blockText undo (.zeros size) s)
    fun written buffer => do
      check buffer written "old state"
      return buffer.take written

/-- A game over buffers as a game. -/
def game (g : BufferedGame σ) : Game (Buffered σ) where
  names := names g
  initial := initial g
  forward := forward g
  backward := backward g

end Buffered

end ChainFollower
