import ChainFollower.Game.Buffered
import ChainFollower.Json.Parser

namespace ChainFollower

namespace Tally

def id : String := "tally"

/-- Results that all fit, or the request for what the longest of them needs. -/
def report {α : Type} (fits : Bool) (written : α) (required : Nat) : CallStatus α :=
  if fits then .complete written else .tooSmall required

/-- A buffer with `data` at its front, or untouched where `data` does not fit. -/
def write (buffer : Buffer) (data : Bytes) : Buffer :=
  if data.length ≤ buffer.size then buffer.write data else buffer

/-- The number of moves in a block; zero where there is no list of fewer than `2 ^ 32`. -/
def moveCount (block : String) : UInt32 :=
  match (Json.ofText? block).bind (Json.field? "moves") with
  | some (.arr moves) => if moves.length < UInt32.size then UInt32.ofNat moves.length else 0
  | _ => 0

def fields : Bytes × Bytes × Bytes :=
  (Utf8.encode id, Utf8.encode "Move tally", Utf8.encode "0.1.0")

def names (buffers : NamesBuffers) : CallStatus NamesWritten × NamesBuffers :=
  let (id, name, version) := fields
  let fits := id.length ≤ buffers.id.size && name.length ≤ buffers.name.size
    && version.length ≤ buffers.version.size
  (report fits ⟨id.length, name.length, version.length⟩
      (max id.length (max name.length version.length)),
    ⟨write buffers.id id, write buffers.name name, write buffers.version version⟩)

def initial (start : Tip) (buffers : InitialBuffers) : CallStatus InitialWritten × InitialBuffers :=
  (.complete ⟨0, start.height⟩, { buffers with hash := buffers.hash.write (Utf8.encode start.hash.toHex) })

def forward (state : Bytes) (block : String) (buffers : ForwardBuffers) :
    CallStatus ForwardWritten × ForwardBuffers :=
  let next := state ++ Bytes.ofUInt32 (moveCount block)
  (report (next.length ≤ buffers.state.size) ⟨next.length, 0⟩ next.length,
    { buffers with state := write buffers.state next })

/-- Drops the last count; a shorter state becomes empty. -/
def backward (state : Bytes) (buffer : Buffer) : CallStatus Nat × Buffer :=
  let previous := state.take (state.length - 4)
  (report (previous.length ≤ buffer.size) previous.length previous.length,
    write buffer previous)

/-- The game that starts at `start` on every network. -/
def calls {σ : Type} (start : Tip) : BufferedGame σ where
  names buffers s := (names buffers, s)
  initial _ buffers s := (initial start buffers, s)
  forward _ state block buffers s := (forward state block buffers, s)
  backward _ state _ _ buffer s := (backward state buffer, s)

def game (start : Tip) : Game (Buffered Unit) := Buffered.game (calls start)

end Tally

end ChainFollower
