import ChainFollower.Sync.Run

namespace ChainFollower

/-- The call that goes on once it has its reply, at once or after a rest. -/
def Progress.call? {C R H : Type} : Progress C R H → Option C
  | .asks call => some call
  | .rests _ call => some call
  | .returned _ => none
  | .halted _ => none

namespace Follower

/-- The two were set up in the same way. -/
structure Kin (f g : Follower) : Prop where
  game : g.game = f.game
  retry : g.retry = f.retry
  pruning : g.pruning = f.pruning

/-- The two differ at most in where they take themselves to be and in what they have published. -/
structure Alike (f g : Follower) : Prop extends Kin f g where
  view : g.view = f.view

variable {f g h : Follower}

theorem Kin.refl (f : Follower) : f.Kin f := ⟨rfl, rfl, rfl⟩

theorem Kin.trans (hfg : f.Kin g) (hgh : g.Kin h) : f.Kin h :=
  ⟨hgh.game.trans hfg.game, hgh.retry.trans hfg.retry, hgh.pruning.trans hfg.pruning⟩

theorem Alike.refl (f : Follower) : f.Alike f := ⟨.refl f, rfl⟩

theorem Alike.trans (hfg : f.Alike g) (hgh : g.Alike h) : f.Alike h :=
  ⟨hfg.toKin.trans hgh.toKin, hgh.view.trans hfg.view⟩

theorem Alike.tip? (hfg : f.Alike g) : g.tip? = f.tip? := by
  unfold Follower.tip?
  rw [hfg.view]

theorem alike_setState {state : SyncState} : f.Alike (f.setState state) :=
  ⟨⟨rfl, rfl, rfl⟩, rfl⟩

theorem alike_fail : f.Alike f.fail := by
  unfold fail
  split
  · exact .refl f
  · exact alike_setState

@[simp] theorem view_setCurrent {stored : StoredState} :
    (f.setCurrent stored).view = f.view.map fun v => { v with current := stored } := rfl

theorem tip?_of_view {v : View} (hv : f.view = some v) : f.tip? = some v.current.tip := by
  simp [Follower.tip?, hv]

theorem exists_view_of_tip? {tip : Tip} (ht : f.tip? = some tip) :
    ∃ v, f.view = some v ∧ v.current.tip = tip :=
  Option.map_eq_some_iff.mp ht

theorem tip?_setCurrent {v : View} {stored : StoredState} (hv : f.view = some v) :
    (f.setCurrent stored).tip? = some stored.tip := by
  simp [Follower.tip?, hv]

/-- A walk that met an error starts over after a rest or is given up. -/
theorem walkFailed_spec (f : Follower) (attempt : Nat) (e : SyncError) :
    f.Alike (f.walkFailed attempt e).1 ∧
      ∀ call ∈ (f.walkFailed attempt e).2.call?, call = .target (attempt + 1) := by
  unfold walkFailed
  split
  · split
    · exact ⟨.refl f, by simp [Progress.call?]⟩
    · exact ⟨alike_fail, by simp [Progress.call?]⟩
  · exact ⟨alike_fail, by simp [Progress.call?]⟩

theorem walkFailed_ne_halted (f : Follower) (attempt : Nat) (e : SyncError) {halt : Halt} :
    (f.walkFailed attempt e).2 ≠ .halted halt := by
  unfold walkFailed
  split
  · split
    · simp
    · simp
  · simp

/-- At `tip`, a walk is over or asks for the block above it. -/
theorem climb_spec (f : Follower) (attempt : Nat) (target tip : Tip) :
    f.Alike (f.climb attempt target tip).1 ∧
      ∀ call ∈ (f.climb attempt target tip).2.call?, call = .next attempt target tip := by
  unfold climb
  split
  · exact ⟨alike_setState, by simp [Progress.call?]⟩
  · exact ⟨.refl f, by simp [Progress.call?]⟩

theorem checkBlock_eq_ok {requested : Tip} {payload : Json} {header : Header}
    (hc : checkBlock requested payload = .ok header) :
    payloadHeader payload = .ok header ∧ header.tip = requested := by
  unfold checkBlock at hc
  split at hc
  · cases hc
  · next heq =>
    split at hc
    · next htip =>
      cases hc
      exact ⟨heq, htip⟩
    · cases hc

theorem checkBlock_of_tip {requested : Tip} {payload : Json} {header : Header}
    (hp : payloadHeader payload = .ok header) (ht : header.tip = requested) :
    checkBlock requested payload = .ok header := by
  simp [checkBlock, hp, ht]

end Follower

end ChainFollower
