import ChainFollower.Proofs.Sync.Frame

namespace ChainFollower

/-- The commit that succeeds with a reply. -/
def Request.committed : (r : Request) → r.Reply → Option Commit
  | .commit c, reply =>
    match reply with
    | .ok () => some c
    | .error _ => none
  | _, _ => none

theorem Request.eq_commit_of_committed {r : Request} {reply : r.Reply} {c : Commit}
    (h : r.committed reply = some c) : r = .commit c := by
  cases r with
  | commit d =>
    cases reply with
    | ok u =>
      cases h
      rfl
    | error e => cases h
  | _ => cases h

/-- The game fails in a step. -/
def Request.GameFails : (r : Request) → r.Reply → Prop
  | .chain _, _ => False
  | .load, _ => False
  | .commit _, _ => False
  | .undo _, _ => False
  | .prune _, _ => False
  | .initial _, _ => False
  | .forward .., reply =>
    match reply with
    | .error _ => True
    | .ok _ => False
  | .backward .., reply =>
    match reply with
    | .error _ => True
    | .ok _ => False

/-- A follower halts like this when its game fails in a step. -/
inductive Halt.Blames (game : String) : Halt → Prop
  | notApplied (block : Tip) (e : GameError) : Blames game (.notApplied game block e)
  | notUndone (block : Tip) (e : GameError) : Blames game (.notUndone game block e)
  | breach (b : Breach) : Blames game (.breach b)

/-- What an attempt is at: the canonical tip, whether the local tip is canonical, undoing it, or applying
the canonical block above it. -/
inductive Stage
  | asking
  | comparing
  | undoing
  | applying
  deriving DecidableEq

/-- The attempt that a block is undone or applied in, if that is not done for a notification. -/
def Cause.within (stage : Stage) : Cause → Option (Nat × Stage)
  | .notified => none
  | .walk attempt _ => some (attempt, stage)

theorem Cause.exists_walk {cause : Cause} {stage stage' : Stage} {attempt : Nat}
    (h : cause.within stage = some (attempt, stage')) :
    ∃ target, cause = .walk attempt target ∧ stage = stage' := by
  cases cause with
  | notified => cases h
  | walk n target =>
    cases h
    exact ⟨target, rfl, rfl⟩

/-- The attempt that a call belongs to, and its stage. -/
def Call.stage? : Call → Option (Nat × Stage)
  | .identify _ => none
  | .begin _ => none
  | .resume .. => none
  | .create .. => none
  | .target attempt => some (attempt, .asking)
  | .compare attempt .. => some (attempt, .comparing)
  | .fetchStale attempt .. => some (attempt, .undoing)
  | .next attempt .. => some (attempt, .applying)
  | .fetchNext attempt .. => some (attempt, .applying)
  | .lookup cause .. => cause.within .undoing
  | .revert cause .. => cause.within .undoing
  | .retreat cause _ => cause.within .undoing
  | .apply cause .. => cause.within .applying
  | .advance cause .. => cause.within .applying
  | .prune cause .. => cause.within .applying

namespace Follower

variable {f : Follower} {call next : Call} {reply : (f.request call).Reply} {done : Option Commit}
  {p : Follower × Next}

/-- The error of those who are asked for a state before there is one. -/
def unopened? (f : Follower) : Option SyncError :=
  if f.view.isSome then none else some (.notInitialized f.game)

/-- The error that a walk meets with this reply. -/
def trouble? (f : Follower) : (call : Call) → (f.request call).Reply → Option SyncError
  | .identify _, _ => none
  | .begin _, _ => none
  | .resume .., _ => none
  | .create .., _ => none
  | .target _, reply =>
    match reply with
    | .error e => some (.chain e)
    | .ok _ => f.unopened?
  | .compare .., reply =>
    match reply with
    | .error e => some (.chain e)
    | .ok _ => none
  | .fetchStale _ _ tip, reply =>
    match reply with
    | .error e => some (.chain e)
    | .ok block =>
      match checkBlock tip block with
      | .error e => some (.chain e)
      | .ok _ => f.unopened?
  | .next _ target tip, reply =>
    match reply with
    | .error e => some (.chain e)
    | .ok none => some (.chain (.noBlockAt (tip.height + 1) target))
    | .ok (some _) => none
  | .fetchNext _ _ tip requested, reply =>
    match reply with
    | .error e => some (.chain e)
    | .ok block =>
      match checkBlock requested block with
      | .error e => some (.chain e)
      | .ok header =>
        if header.parent = tip.hash then f.unopened?
        else some (.chain (.notExtending header.tip tip))
  | .lookup .., reply =>
    match reply with
    | .error e => some (.storage e)
    | .ok _ => none
  | .revert .., _ => none
  | .retreat .., reply =>
    match reply with
    | .error e => some (.storage e)
    | .ok _ => none
  | .apply .., _ => none
  | .advance .., reply =>
    match reply with
    | .error e => some (.storage e)
    | .ok _ => none
  | .prune .., _ => none

theorem unopened?_of_view {v : View} (hv : f.view = some v) : f.unopened? = none := by
  simp [unopened?, hv]

theorem unopened?_of_none (hv : f.view = none) : f.unopened? = some (.notInitialized f.game) := by
  simp [unopened?, hv]

/-- The call that follows at once on this reply, with the follower as it is. -/
inductive Asks (f : Follower) : (call : Call) → (f.request call).Reply → Call → Prop
  | begin (attempt : Nat) (info : ChainInfo) :
      Asks f (.identify attempt) (.ok info : Except ChainError ChainInfo) (.begin info.network)
  | resume (network : Network) (initial : InitialState) :
      Asks f (.begin network) (.ok initial : Except GameFailure InitialState) (.resume network initial)
  | create (network : Network) (initial : InitialState) :
      Asks f (.resume network initial) (.ok none : Except StoreError (Option StoredState))
        (.create network initial)
  | compare (attempt : Nat) (info : ChainInfo) {v : View} : f.view = some v →
      Asks f (.target attempt) (.ok info : Except ChainError ChainInfo)
        (.compare attempt info.tip v.current.tip)
  | lookup (attempt : Nat) (target : Tip) {tip : Tip} {block : Json} {header : Header} {v : View} :
      checkBlock tip block = .ok header → f.view = some v →
      Asks f (.fetchStale attempt target tip) (.ok block : Except ChainError Json)
        (.lookup (.walk attempt target) v block)
  | fetchNext (attempt : Nat) (target tip : Tip) (hash : Hash) :
      Asks f (.next attempt target tip) (.ok (some hash) : Except ChainError (Option Hash))
        (.fetchNext attempt target tip ⟨tip.height + 1, hash⟩)
  | apply (attempt : Nat) (target : Tip) {tip requested : Tip} {block : Json} {header : Header}
      {v : View} : checkBlock requested block = .ok header → header.parent = tip.hash →
      f.view = some v →
      Asks f (.fetchNext attempt target tip requested) (.ok block : Except ChainError Json)
        (.apply (.walk attempt target) v header block)
  | revert (cause : Cause) (view : View) (block : Json) (record : UndoRecord) :
      Asks f (.lookup cause view block) (.ok (some record) : Except StoreError (Option UndoRecord))
        (.revert cause view block record)
  | retreat (cause : Cause) (view : View) (block : Json) (record : UndoRecord) (state : Bytes) :
      Asks f (.revert cause view block record) (.ok state : Except GameFailure Bytes)
        (.retreat cause ⟨⟨lower view.current.tip.height, record.parent⟩, state⟩)
  | advance (cause : Cause) (view : View) (header : Header) (block : Json) (step : ForwardStep) :
      Asks f (.apply cause view header block) (.ok step : Except GameFailure ForwardStep)
        (.advance cause header step)

/-- All that a call can make of a reply, and what is committed then. -/
inductive Yields (f : Follower) :
    (call : Call) → (f.request call).Reply → Option Commit → Follower × Next → Prop
  /-- A walk meets an error. -/
  | fails {call : Call} {reply : (f.request call).Reply} {stage : Stage} (attempt : Nat)
      (e : SyncError) : call.stage? = some (attempt, stage) → f.trouble? call reply = some e →
      Yields f call reply none (f.walkFailed attempt e)
  /-- A notified block meets an error. -/
  | drops {call : Call} {reply : (f.request call).Reply} {e : SyncError} :
      call.stage? = none → f.trouble? call reply = some e →
      Yields f call reply none (f.fail, .returned (.ok ()))
  | asks {call next : Call} {reply : (f.request call).Reply} : f.Asks call reply next →
      Yields f call reply none (f, .asks next)
  | rests (attempt : Nat) (d : Duration) (e : ChainError) :
      Yields f (.identify attempt) (.error e : Except ChainError ChainInfo) none
        (f, .rests d (.identify (attempt + 1)))
  | aborts {call : Call} {reply : (f.request call).Reply} (e : SyncError) : call.stage? = none →
      Yields f call reply none (f, .returned (.error e))
  | declines (network : Network) (e : GameError) :
      Yields f (.begin network) (.error (.refused e) : Except GameFailure InitialState) none
        (f, .halted (.noInitialState f.game e))
  | breaks (network : Network) (b : Breach) :
      Yields f (.begin network) (.error (.broken b) : Except GameFailure InitialState) none
        (f, .halted (.breach b))
  | halts {call : Call} {reply : (f.request call).Reply} {halt : Halt} : halt.Blames f.game →
      (f.request call).GameFails reply → Yields f call reply none (f, .halted halt)
  | lacks (cause : Cause) (view : View) (block : Json) :
      Yields f (.lookup cause view block) (.ok none : Except StoreError (Option UndoRecord)) none
        (f, .halted (.noUndoRecord f.game view.current.tip))
  | loads (network : Network) (initial : InitialState) (stored : StoredState) :
      Yields f (.resume network initial)
        (.ok (some stored) : Except StoreError (Option StoredState)) none
        (f.settled network initial stored)
  | creates (network : Network) (initial : InitialState) :
      Yields f (.create network initial) (.ok () : Except StoreError Unit)
        (some (.withoutUndo initial.tip initial.state))
        (f.settled network initial ⟨initial.tip, initial.state⟩)
  | stands (attempt : Nat) (info : ChainInfo) {v : View} : f.view = some v →
      Yields f (.target attempt) (.ok info : Except ChainError ChainInfo) none
        (f.setState .synced, .returned (.ok ()))
  | arrives (attempt : Nat) {target tip : Tip} : target.height ≤ tip.height →
      Yields f (.compare attempt target tip)
        (.ok (some tip.hash) : Except ChainError (Option Hash)) none
        (f.setState .synced, .returned (.ok ()))
  | catchesUp (attempt : Nat) {target tip : Tip} : tip.height < target.height →
      Yields f (.compare attempt target tip)
        (.ok (some tip.hash) : Except ChainError (Option Hash)) none
        (f.setState .catchingUp, .asks (.next attempt target tip))
  | reorganizes (attempt : Nat) (target : Tip) {tip : Tip} {canonical : Option Hash} :
      canonical ≠ some tip.hash →
      Yields f (.compare attempt target tip) (.ok canonical : Except ChainError (Option Hash)) none
        (f.setState .reorganizing, .asks (.fetchStale attempt target tip))
  | undoes (cause : Cause) (stored : StoredState) :
      Yields f (.retreat cause stored) (.ok () : Except StoreError Unit)
        (some (.withoutUndo stored.tip stored.state)) (f.retreated cause stored)
  | prunes (cause : Cause) {header : Header} (step : ForwardStep) {below : UInt64} :
      f.pruneBelow? header.height = some below →
      Yields f (.advance cause header step) (.ok () : Except StoreError Unit)
        (some (.forward header.tip step.state header.parent step.undo))
        (f.setCurrent ⟨header.tip, step.state⟩, .asks (.prune cause header.tip below))
  | applies (cause : Cause) (header : Header) (step : ForwardStep) :
      Yields f (.advance cause header step) (.ok () : Except StoreError Unit)
        (some (.forward header.tip step.state header.parent step.undo))
        ((f.setCurrent ⟨header.tip, step.state⟩).applied cause header.tip)
  | pruned (cause : Cause) (tip : Tip) (below : UInt64)
      (reply : (f.request (.prune cause tip below)).Reply) :
      Yields f (.prune cause tip below) reply none (f.applied cause tip)

theorem yields_targetKnown (attempt : Nat) (info : ChainInfo) :
    f.Yields (.target attempt) (.ok info : Except ChainError ChainInfo) none
      (f.targetKnown attempt info.tip) := by
  unfold targetKnown
  split
  · next hv => exact .fails attempt _ rfl (unopened?_of_none hv)
  · next v hv =>
    split
    · exact .stands attempt info hv
    · split
      · exact .stands attempt info hv
      · exact .asks (.compare attempt info hv)

theorem yields_compared (attempt : Nat) (target tip : Tip) (canonical : Option Hash) :
    f.Yields (.compare attempt target tip) (.ok canonical : Except ChainError (Option Hash)) none
      (f.compared attempt target tip canonical) := by
  unfold compared
  split
  · next hcanonical =>
    subst hcanonical
    unfold forkReached climb
    by_cases hlt : tip.height < target.height
    · rw [if_pos hlt, if_neg (UInt64.not_le.mpr hlt)]
      exact .catchesUp attempt hlt
    · rw [if_neg hlt, if_pos (UInt64.not_lt.mp hlt)]
      exact .arrives attempt (UInt64.not_lt.mp hlt)
  · next hne => exact .reorganizes attempt target hne

theorem yields_staleFetched (attempt : Nat) (target tip : Tip) (block : Json) :
    f.Yields (.fetchStale attempt target tip) (.ok block : Except ChainError Json) none
      (f.staleFetched attempt target tip block) := by
  unfold staleFetched
  split
  · next e hc => exact .fails attempt _ rfl (by simp only [trouble?, hc])
  · next header hc =>
    split
    · next hv => exact .fails attempt _ rfl (by simp only [trouble?, hc, unopened?_of_none hv])
    · next v hv => exact .asks (.lookup attempt target hc hv)

theorem yields_nextKnown (attempt : Nat) (target tip : Tip) (hash : Option Hash) :
    f.Yields (.next attempt target tip) (.ok hash : Except ChainError (Option Hash)) none
      (f.nextKnown attempt target tip hash) := by
  cases hash with
  | none => exact .fails attempt (.chain (.noBlockAt (tip.height + 1) target)) rfl rfl
  | some hash => exact .asks (.fetchNext attempt target tip hash)

theorem yields_nextFetched (attempt : Nat) (target tip requested : Tip) (block : Json) :
    f.Yields (.fetchNext attempt target tip requested) (.ok block : Except ChainError Json) none
      (f.nextFetched attempt target tip requested block) := by
  unfold nextFetched
  split
  · next e hc => exact .fails attempt _ rfl (by simp only [trouble?, hc])
  · next header hc =>
    split
    · next hparent => exact .fails attempt _ rfl (by simp only [trouble?, hc, if_neg hparent])
    · next hparent =>
      have hparent := Decidable.not_not.mp hparent
      split
      · next hv =>
        exact .fails attempt _ rfl (by simp only [trouble?, hc, if_pos hparent, unopened?_of_none hv])
      · next v hv => exact .asks (.apply attempt target hc hparent hv)

theorem yields_advanced (cause : Cause) (header : Header) (step : ForwardStep) :
    f.Yields (.advance cause header step) (.ok () : Except StoreError Unit)
      (some (.forward header.tip step.state header.parent step.undo))
      (f.advanced cause header step) := by
  unfold advanced
  simp only
  split
  · next below hbelow => exact .prunes cause step hbelow
  · exact .applies cause header step

/-- An error in a step is one of its walk or of its notification. -/
theorem yields_stepFailed {cause : Cause} {stage : Stage} {e : SyncError}
    (hs : call.stage? = cause.within stage) (ht : f.trouble? call reply = some e) :
    f.Yields call reply none (f.stepFailed cause e) := by
  cases cause with
  | notified => exact .drops hs ht
  | walk attempt target => exact .fails attempt e hs ht

theorem yields_proceed (f : Follower) (call : Call) (reply : (f.request call).Reply) :
    f.Yields call reply ((f.request call).committed reply) (f.proceed call reply) := by
  cases call with
  | identify attempt =>
    cases reply with
    | ok info => exact .asks (.begin attempt info)
    | error e =>
      simp only [proceed]
      split
      · next d _ => exact .rests attempt d e
      · exact .aborts _ rfl
  | begin network =>
    rcases reply with (e | b) | initial
    · exact .declines network e
    · exact .breaks network b
    · exact .asks (.resume network initial)
  | resume network initial =>
    rcases reply with e | _ | stored
    · exact .aborts _ rfl
    · exact .asks (.create network initial)
    · exact .loads network initial stored
  | create network initial =>
    cases reply with
    | ok u => exact .creates network initial
    | error e => exact .aborts _ rfl
  | target attempt =>
    cases reply with
    | ok info => exact yields_targetKnown attempt info
    | error e => exact .fails attempt (.chain e) rfl rfl
  | compare attempt target tip =>
    cases reply with
    | ok canonical => exact yields_compared attempt target tip canonical
    | error e => exact .fails attempt (.chain e) rfl rfl
  | fetchStale attempt target tip =>
    cases reply with
    | ok block => exact yields_staleFetched attempt target tip block
    | error e => exact .fails attempt (.chain e) rfl rfl
  | next attempt target tip =>
    cases reply with
    | ok hash => exact yields_nextKnown attempt target tip hash
    | error e => exact .fails attempt (.chain e) rfl rfl
  | fetchNext attempt target tip requested =>
    cases reply with
    | ok block => exact yields_nextFetched attempt target tip requested block
    | error e => exact .fails attempt (.chain e) rfl rfl
  | lookup cause view block =>
    rcases reply with e | _ | record
    · exact yields_stepFailed rfl rfl
    · exact .lacks cause view block
    · exact .asks (.revert cause view block record)
  | revert cause view block record =>
    rcases reply with (e | b) | state
    · exact .halts (.notUndone _ e) trivial
    · exact .halts (.breach b) trivial
    · exact .asks (.retreat cause view block record state)
  | retreat cause stored =>
    cases reply with
    | ok u => exact .undoes cause stored
    | error e => exact yields_stepFailed rfl rfl
  | apply cause view header block =>
    rcases reply with (e | b) | step
    · exact .halts (.notApplied _ e) trivial
    · exact .halts (.breach b) trivial
    · exact .asks (.advance cause view header block step)
  | advance cause header step =>
    cases reply with
    | ok u => exact yields_advanced cause header step
    | error e => exact yields_stepFailed rfl rfl
  | prune cause tip below => exact .pruned cause tip below reply

theorem kin_setCurrent (stored : StoredState) : f.Kin (f.setCurrent stored) := ⟨rfl, rfl, rfl⟩

theorem kin_retreated (cause : Cause) (stored : StoredState) :
    f.Kin (f.retreated cause stored).1 := by
  cases cause with
  | notified => exact kin_setCurrent stored
  | walk attempt target => exact kin_setCurrent stored

theorem kin_applied (cause : Cause) (tip : Tip) : f.Kin (f.applied cause tip).1 := by
  cases cause with
  | notified => exact .refl f
  | walk attempt target => exact (f.climb_spec attempt target tip).1.toKin

theorem Yields.kin (h : f.Yields call reply done p) : f.Kin p.1 := by
  cases h with
  | fails attempt e _ _ => exact (f.walkFailed_spec attempt e).1.toKin
  | drops _ _ => exact alike_fail.toKin
  | undoes cause stored => exact kin_retreated cause stored
  | applies cause header step => exact (kin_setCurrent _).trans (kin_applied cause header.tip)
  | pruned cause tip below reply => exact kin_applied cause tip
  | _ => exact ⟨rfl, rfl, rfl⟩

/-- A reply changes nothing of how a follower was set up. -/
theorem kin_proceed (f : Follower) (call : Call) (reply : (f.request call).Reply) :
    f.Kin (f.proceed call reply).1 :=
  (f.yields_proceed call reply).kin

/-- A call that follows at once is in the stage of the one before it, or it starts to compare. -/
theorem Asks.stage? (h : f.Asks call reply next) : next.stage? = call.stage? ∨
    ∃ attempt, call.stage? = some (attempt, .asking) ∧ next.stage? = some (attempt, .comparing) := by
  cases h with
  | compare attempt info hv => exact .inr ⟨attempt, rfl, rfl⟩
  | _ => exact .inl rfl

/-- All that a follower can make of a notification: it halts, does nothing, walks, or takes the block at
its word. -/
theorem notified_cases (f : Follower) (note : Notification) :
    (∃ m, f.notified note = (f, .halted (.noHeader note.kind note.game m))) ∨
      f.notified note = (f, .returned (.ok ())) ∨
      ∃ header v, payloadHeader note.payload = .ok header ∧ f.view = some v ∧
        (f.notified note = (f, .asks (.target 1)) ∨
          (note.kind = .attach ∧ header.parent = v.current.tip.hash ∧
            f.notified note = (f, .asks (.apply .notified v header note.payload))) ∨
          (header.hash = v.current.tip.hash ∧
            f.notified note = (f, .asks (.lookup .notified v note.payload)))) := by
  unfold notified
  split
  · next hkind =>
    unfold attached
    split
    · exact .inl ⟨_, rfl⟩
    · next header hheader =>
      split
      · exact .inr (.inl rfl)
      · next v hv =>
        split
        · exact .inr (.inl rfl)
        · split
          · exact .inr (.inl rfl)
          · refine .inr (.inr ⟨header, v, hheader, hv, ?_⟩)
            split
            · next hdirect => exact .inr (.inl ⟨hkind, hdirect.2.2, rfl⟩)
            · exact .inl rfl
  · unfold detached
    split
    · exact .inl ⟨_, rfl⟩
    · next header hheader =>
      split
      · exact .inr (.inl rfl)
      · next v hv =>
        split
        · exact .inr (.inl rfl)
        · refine .inr (.inr ⟨header, v, hheader, hv, ?_⟩)
          split
          · next hdirect => exact .inr (.inr ⟨hdirect.2.2, rfl⟩)
          · exact .inl rfl

end Follower

end ChainFollower
