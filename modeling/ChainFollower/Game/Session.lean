import ChainFollower.Game.Basic

namespace ChainFollower

/-- A game that is played block by block: its last state and the undo data of its blocks are at hand. -/
structure GameSession (σ : Type) where
  game : Game σ
  inner : σ
  /-- The state that the last successful call gave. -/
  state : Bytes
  /-- Undo data not used yet, the newest first. -/
  undos : List Bytes

namespace GameSession

variable {σ : Type}

def start (game : Game σ) (inner : σ) : GameSession σ := ⟨game, inner, [], []⟩

def names (s : GameSession σ) : Except GameFailure GameNames × GameSession σ :=
  let (r, inner) := s.game.names s.inner
  (r, { s with inner })

def initial (s : GameSession σ) (network : Network) :
    Except GameFailure InitialState × GameSession σ :=
  let (r, inner) := s.game.initial network s.inner
  (r, { s with inner, state := (r.toOption.map InitialState.state).getD s.state })

/-- A block on a state, or on the last one. -/
def forward (s : GameSession σ) (network : Network) (state : Option Bytes) (block : Json) :
    Except GameFailure ForwardStep × GameSession σ :=
  let (r, inner) := s.game.forward network (state.getD s.state) block s.inner
  match r with
  | .ok step => (r, { s with inner, state := step.state, undos := step.undo :: s.undos })
  | .error _ => (r, { s with inner })

/-- A block off a state, or off the last one, with undo data, or with the newest not used yet. -/
def backward (s : GameSession σ) (network : Network) (state : Option Bytes) (block : Json)
    (undo : Option Bytes) : Except GameFailure Bytes × GameSession σ :=
  let undos := if undo.isSome then s.undos else s.undos.drop 1
  let undo := undo.getD (s.undos.headD [])
  let (r, inner) := s.game.backward network (state.getD s.state) block undo s.inner
  (r, { s with inner, undos, state := r.toOption.getD s.state })

end GameSession

end ChainFollower
