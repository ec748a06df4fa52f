import ChainFollower.Game.Basic

namespace ChainFollower

/-- A block that a game has applied, the state it was applied to, and what undoes it. -/
structure AppliedBlock where
  block : Json
  before : Bytes
  undo : Bytes

/-- The state after calls that gave results, and the blocks that are applied, the last one in front. At
every call the surroundings of the game are any that it can have. -/
inductive Game.Played {σ : Type} (game : Game σ) (Around : σ → Prop) : Bytes → List AppliedBlock → Prop
  | initial (network : Network) {s : σ} {i : InitialState} (haround : Around s)
      (hcall : (game.initial network s).1 = .ok i) : Played game Around i.state []
  | forward (network : Network) {s : σ} {state : Bytes} {applied : List AppliedBlock} {step : ForwardStep}
      (block : Json) (hplayed : Played game Around state applied) (haround : Around s)
      (hcall : (game.forward network state block s).1 = .ok step) :
      Played game Around step.state (⟨block, state, step.undo⟩ :: applied)
  | backward (network : Network) {s : σ} {state previous : Bytes} {a : AppliedBlock}
      {applied : List AppliedBlock} (hplayed : Played game Around state (a :: applied)) (haround : Around s)
      (hcall : (game.backward network state a.block a.undo s).1 = .ok previous) :
      Played game Around previous applied

end ChainFollower
