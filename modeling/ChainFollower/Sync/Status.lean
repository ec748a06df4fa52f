import ChainFollower.Block
import ChainFollower.Chain.Source
import ChainFollower.Game.Basic
import ChainFollower.Store.Basic

namespace ChainFollower

inductive SyncState
  /-- No tip has been loaded or created. -/
  | uninitialized
  /-- The local tip is taken for the canonical one. -/
  | synced
  /-- Blocks up to the canonical tip are still to be applied. -/
  | catchingUp
  /-- Blocks of an abandoned branch are being undone. -/
  | reorganizing
  deriving DecidableEq, Repr

def SyncState.name : SyncState → String
  | .uninitialized => "Uninitialized"
  | .synced => "Synced"
  | .catchingUp => "CatchingUp"
  | .reorganizing => "Reorganizing"

structure Status where
  state : SyncState
  tip : Option Tip
  deriving DecidableEq

def Status.uninitialized : Status := ⟨.uninitialized, none⟩

def Status.toJson (s : Status) : Json :=
  .obj [("state", .str s.state.name), ("tip", (s.tip.map Tip.toJson).getD .null)]

/-- Statuses as watchers see them, the newest first. A status that equals the last one is not
published again. -/
structure Watch where
  last : Status
  earlier : List Status
  deriving DecidableEq

namespace Watch

def start : Watch := ⟨.uninitialized, []⟩

def publish (w : Watch) (s : Status) : Watch :=
  if w.last = s then w else ⟨s, w.last :: w.earlier⟩

/-- How often the status has changed. -/
def changes (w : Watch) : Nat := w.earlier.length

def history (w : Watch) : List Status := w.last :: w.earlier

end Watch

inductive SyncError
  | chain (e : ChainError)
  | storage (e : StoreError)
  | notInitialized (game : String)

def SyncError.message : SyncError → String
  | .chain e => "chain source error: " ++ e.message
  | .storage e => "storage error: " ++ e.message
  | .notInitialized game => "game " ++ game ++ " is not initialized"

/-- What a follower cannot go on after. -/
inductive Halt
  | noInitialState (game : String) (e : GameError)
  | noHeader (kind : EventKind) (game : String) (m : Json.Mismatch)
  | notApplied (game : String) (block : Tip) (e : GameError)
  | notUndone (game : String) (block : Tip) (e : GameError)
  | noUndoRecord (game : String) (block : Tip)
  | breach (b : Breach)

def Halt.message : Halt → String
  | .noInitialState game e => "game " ++ game ++ " has no initial state: " ++ e.message
  | .noHeader kind game m =>
    kind.name ++ " notification for game " ++ game ++ " has no valid block header: " ++ m.message
  | .notApplied game block e =>
    "game " ++ game ++ " failed to apply block " ++ block.text ++ ": " ++ e.message
  | .notUndone game block e =>
    "game " ++ game ++ " failed to undo block " ++ block.text ++ ": " ++ e.message
  | .noUndoRecord game block =>
    "reorg of game " ++ game ++ " is deeper than the undo journal: no undo data for " ++ block.text
  | .breach b => b.message

end ChainFollower
