import ChainFollower.Block
import ChainFollower.Json.Basic
import ChainFollower.Within

namespace ChainFollower

structure GameNames where
  id : String
  name : String
  version : String
  deriving DecidableEq, Repr

structure InitialState where
  state : Bytes
  height : UInt64
  hash : Hash
  deriving DecidableEq

def InitialState.tip (s : InitialState) : Tip := ⟨s.height, s.hash⟩

/-- The state after a block, and what undoes it. -/
structure ForwardStep where
  state : Bytes
  undo : Bytes
  deriving DecidableEq

inductive GameError
  | invalidState (reason : String)
  | invalidBlock (reason : String)
  | invalidUndo (reason : String)
  deriving DecidableEq, Repr

def GameError.message : GameError → String
  | .invalidState reason => "invalid game state: " ++ reason
  | .invalidBlock reason => "invalid block data: " ++ reason
  | .invalidUndo reason => "invalid undo data: " ++ reason

/-- How a game that writes into buffers breaks the rules of its calls. -/
inductive Breach
  /-- It asks for a larger buffer of no bytes. -/
  | emptyRequest
  /-- It reports more bytes than the buffer has. -/
  | overrun (written : Nat) (what : String) (size : Nat)
  | badInitialHash
  /-- No buffer can be as large as the next one would have to be. -/
  | tooLarge
  deriving DecidableEq, Repr

def Breach.message : Breach → String
  | .emptyRequest => "buffered game logic requested a zero-sized buffer"
  | .overrun written what size =>
    "game logic reported " ++ toString written ++ " bytes of " ++ what ++ " in a "
      ++ toString size ++ " byte buffer"
  | .badInitialHash => "game logic returned an invalid initial block hash"
  | .tooLarge => "capacity overflow"

/-- Why a call to a game gives no result: the game refuses, or it cannot be called any more. -/
inductive GameFailure
  | refused (e : GameError)
  | broken (b : Breach)
  deriving DecidableEq, Repr

/-- A game inside something larger, which its calls may change. It takes its state forwards over one block, and with
the undo data of that step back to the bytes it had before. -/
structure Game (σ : Type) where
  names : σ → Except GameFailure GameNames × σ
  initial : Network → σ → Except GameFailure InitialState × σ
  forward : Network → Bytes → Json → σ → Except GameFailure ForwardStep × σ
  /-- The state before a block, from the state after it, the block and its undo data. -/
  backward : Network → Bytes → Json → Bytes → σ → Except GameFailure Bytes × σ

/-- A game that stands in a part of a larger whole. -/
def Game.lift {σ τ : Type} (get : σ → τ) (set : τ → σ → σ) (game : Game τ) : Game σ where
  names := within get set game.names
  initial network := within get set (game.initial network)
  forward network state block := within get set (game.forward network state block)
  backward network state block undo := within get set (game.backward network state block undo)

end ChainFollower
