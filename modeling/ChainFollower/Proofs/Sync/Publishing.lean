import ChainFollower.Proofs.Sync.Life

namespace ChainFollower

namespace Watch

variable {w : Watch} {s : Status}

@[simp] theorem last_publish : (w.publish s).last = s := by
  unfold publish
  split
  · assumption
  · rfl

/-- A status that equals the last one is not published again. -/
theorem history_publish :
    (w.publish s).history = if w.last = s then w.history else s :: w.history := by
  unfold publish
  split
  · rfl
  · rfl

end Watch

namespace Follower

variable {f g h : Follower} {call : Call} {reply : (f.request call).Reply} {done : Option Commit}
  {p : Follower × Next} {held held' : Holdings}

/-- All that is published on the way from `f` to `g` is about the tip that `g` has. -/
def Publishes (f g : Follower) : Prop :=
  ∃ new, g.watch.history = new ++ f.watch.history ∧ ∀ s ∈ new, s.tip = g.tip?

/-- `g` is what `f` becomes by setting its state, any number of times. -/
inductive Restates (f : Follower) : Follower → Prop
  | refl : Restates f f
  | setState {g : Follower} (state : SyncState) : Restates f g → Restates f (g.setState state)

theorem publishes_publish (hw : g.watch = f.watch) : f.Publishes g.publish := by
  by_cases hs : f.watch.last = g.status
  · refine ⟨[], ?_, by simp⟩
    simp [publish, Watch.history_publish, hs, hw]
  · refine ⟨[g.status], ?_, ?_⟩
    · simp [publish, Watch.history_publish, hs, hw]
    · intro s hmem
      rw [List.mem_singleton.mp hmem]
      rfl

theorem Publishes.trans (hfg : f.Publishes g) (hgh : g.Publishes h) (ht : h.tip? = g.tip?) :
    f.Publishes h := by
  obtain ⟨new, heq, hnew⟩ := hfg
  obtain ⟨newer, heq', hnewer⟩ := hgh
  refine ⟨newer ++ new, by rw [heq', heq, List.append_assoc], ?_⟩
  intro s hmem
  rcases List.mem_append.mp hmem with hmem | hmem
  · exact hnewer s hmem
  · rw [ht]
    exact hnew s hmem

namespace Restates

theorem alike (h : f.Restates g) : f.Alike g := by
  induction h with
  | refl => exact .refl f
  | setState state _ ih => exact ih.trans alike_setState

theorem publishes (h : f.Restates g) : f.Publishes g := by
  induction h with
  | refl => exact ⟨[], rfl, by simp⟩
  | setState state _ ih => exact ih.trans (publishes_publish rfl) rfl

/-- Watchers see the status of a follower, however often it is restated. -/
theorem last_eq (h : f.Restates g) (hf : f.watch.last = f.status) : g.watch.last = g.status := by
  cases h with
  | refl => exact hf
  | setState state _ => exact Watch.last_publish

end Restates

theorem restates_fail : f.Restates f.fail := by
  unfold fail
  split
  · exact .refl
  · exact .setState _ .refl

theorem restates_walkFailed (attempt : Nat) (e : SyncError) :
    f.Restates (f.walkFailed attempt e).1 := by
  unfold walkFailed
  split
  · split
    · exact .refl
    · exact restates_fail
  · exact restates_fail

theorem Restates.climb (h : f.Restates g) (attempt : Nat) (target tip : Tip) :
    f.Restates (g.climb attempt target tip).1 := by
  unfold Follower.climb
  split
  · exact .setState _ h
  · exact h

theorem restates_applied (cause : Cause) (tip : Tip) : f.Restates (f.applied cause tip).1 := by
  cases cause with
  | notified => exact .refl
  | walk attempt target => exact .climb .refl attempt target tip

theorem restates_retreated (cause : Cause) (stored : StoredState) :
    (f.setCurrent stored).Restates (f.retreated cause stored).1 := by
  cases cause with
  | notified => exact .refl
  | walk attempt target => exact .refl

/-- What a follower becomes with a reply that commits `done`, where the store then holds `current`. -/
inductive Becomes (f : Follower) (current : Option StoredState) : Option Commit → Follower → Prop
  | restated {g : Follower} : f.Restates g → Becomes f current none g
  | moved {g : Follower} (c : Commit) : current = some c.stored →
      (f.setCurrent c.stored).Restates g → Becomes f current (some c) g
  | opened {done : Option Commit} {network : Network} {initial : InitialState}
      {stored : StoredState} : current = some stored →
      Becomes f current done (f.settled network initial stored).1

theorem Yields.becomes (h : f.Yields call reply done p)
    (stored : held.Answers (f.request call) reply held') : f.Becomes held'.current done p.1 := by
  cases h with
  | fails attempt e _ _ => exact .restated (restates_walkFailed attempt e)
  | drops _ _ => exact .restated restates_fail
  | loads network initial found =>
    obtain ⟨rfl, hfound⟩ := stored
    exact .opened (hfound _ rfl).symm
  | creates network initial =>
    cases stored
    exact .opened rfl
  | stands _ _ _ => exact .restated (.setState _ .refl)
  | arrives _ _ => exact .restated (.setState _ .refl)
  | catchesUp _ _ => exact .restated (.setState _ .refl)
  | reorganizes _ _ _ => exact .restated (.setState _ .refl)
  | undoes cause st =>
    cases stored
    exact .moved _ rfl (restates_retreated cause st)
  | prunes cause step _ =>
    cases stored
    exact .moved _ rfl .refl
  | applies cause header step =>
    cases stored
    exact .moved _ rfl (restates_applied cause header.tip)
  | pruned cause tip below reply => exact .restated (restates_applied cause tip)
  | _ => exact .restated .refl

/-- All that a reply can do to a follower. -/
theorem becomes_proceed (stored : held.Answers (f.request call) reply held') :
    f.Becomes held'.current ((f.request call).committed reply) (f.proceed call reply).1 :=
  (f.yields_proceed call reply).becomes stored

theorem Becomes.publishes {current : Option StoredState} (h : f.Becomes current done g) :
    f.Publishes g := by
  cases h with
  | restated h => exact h.publishes
  | moved c hc h =>
    have hset : f.Publishes (f.setCurrent c.stored) := publishes_publish rfl
    exact hset.trans h.publishes h.alike.tip?
  | opened hc => exact publishes_publish rfl

end Follower

end ChainFollower
