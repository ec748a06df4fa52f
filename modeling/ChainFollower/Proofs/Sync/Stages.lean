import ChainFollower.Proofs.Sync.Trail

namespace ChainFollower

/-- The state that a walk is in when it touches a block. -/
def Request.phase? : Request → Option SyncState
  | .chain _ => none
  | .load => none
  | .commit c => some (if c.undo.isSome then .catchingUp else .reorganizing)
  | .undo _ => some .reorganizing
  | .prune _ => some .catchingUp
  | .initial _ => none
  | .forward .. => some .catchingUp
  | .backward .. => some .reorganizing

/-- The state of a walk that is to touch blocks in this stage. -/
def Stage.phase? : Stage → Option SyncState
  | .asking => none
  | .comparing => none
  | .undoing => some .reorganizing
  | .applying => some .catchingUp

namespace Commit

/-- The block `tip` is taken back. -/
structure Drops (c : Commit) (tip : Tip) : Prop where
  undo : c.undo = none
  height : tip.height.toNat = c.tip.height.toNat + 1

/-- A block on `tip` is applied. -/
structure Rises (c : Commit) (tip : Tip) : Prop where
  undo : ∃ undo, c.undo = some ⟨tip.hash, undo⟩
  height : c.tip.height.toNat = tip.height.toNat + 1

end Commit

namespace Follower

variable {f g : Follower} {attempt : Nat} {stage : Stage} {call : Call}
  {reply : (f.request call).Reply} {done : Option Commit}
  {commits : List Commit} {held held' : Holdings} {p : Follower × Next}

/-- What comes of an attempt that ends like this. -/
def concluded (f : Follower) (attempt : Nat) : Outcome → Follower × Next
  | .ok () => (f.setState .synced, .returned (.ok ()))
  | .error e => f.walkFailed attempt e

/-- A call in an attempt touches blocks only in the state of its stage. -/
theorem phase?_of_stage (hs : call.stage? = some (attempt, stage)) {state : SyncState}
    (h : (f.request call).phase? = some state) : stage.phase? = some state := by
  cases call with
  | identify n => cases hs
  | begin network => cases hs
  | resume network initial => cases hs
  | create network initial => cases hs
  | target n => cases h
  | compare n target tip => cases h
  | fetchStale n target tip => cases h
  | next n target tip => cases h
  | fetchNext n target tip requested => cases h
  | lookup cause view block =>
    obtain ⟨target, rfl, rfl⟩ := Cause.exists_walk hs
    exact h
  | revert cause view block record =>
    obtain ⟨target, rfl, rfl⟩ := Cause.exists_walk hs
    exact h
  | retreat cause stored =>
    obtain ⟨target, rfl, rfl⟩ := Cause.exists_walk hs
    exact h
  | apply cause view header block =>
    obtain ⟨target, rfl, rfl⟩ := Cause.exists_walk hs
    exact h
  | advance cause header step =>
    obtain ⟨target, rfl, rfl⟩ := Cause.exists_walk hs
    exact h
  | prune cause tip below =>
    obtain ⟨target, rfl, rfl⟩ := Cause.exists_walk hs
    exact h

/-- All that an attempt can do with a reply, and what is committed then. -/
inductive Strides (f : Follower) (attempt : Nat) : Stage → Option Commit → Follower × Next → Prop
  | asks {stage : Stage} {call : Call} : call.stage? = some (attempt, stage) →
      Strides f attempt stage none (f, .asks call)
  | ends {stage : Stage} (result : Outcome) : Strides f attempt stage none (f.concluded attempt result)
  | halts {stage : Stage} (halt : Halt) : Strides f attempt stage none (f, .halted halt)
  | compares {call : Call} : call.stage? = some (attempt, .comparing) →
      Strides f attempt .asking none (f, .asks call)
  | reorganizes {call : Call} : call.stage? = some (attempt, .undoing) →
      Strides f attempt .comparing none (f.setState .reorganizing, .asks call)
  | catchesUp {call : Call} : call.stage? = some (attempt, .applying) →
      Strides f attempt .comparing none (f.setState .catchingUp, .asks call)
  | undoes {call : Call} {c : Commit} {tip : Tip} : f.tip? = some tip → c.Drops tip →
      call.stage? = some (attempt, .comparing) →
      Strides f attempt .undoing (some c) (f.setCurrent c.stored, .asks call)
  | applies {call : Call} {c : Commit} {tip : Tip} : f.tip? = some tip → c.Rises tip →
      call.stage? = some (attempt, .applying) →
      Strides f attempt .applying (some c) (f.setCurrent c.stored, .asks call)
  | arrives {c : Commit} {tip : Tip} : f.tip? = some tip → c.Rises tip →
      Strides f attempt .applying (some c) ((f.setCurrent c.stored).concluded attempt (.ok ()))

theorem strides_climb (target tip : Tip) :
    f.Strides attempt .applying none (f.climb attempt target tip) := by
  unfold climb
  split
  · exact .ends (.ok ())
  · exact .asks rfl

theorem strides_applied {c : Commit} {tip : Tip} (target top : Tip) (ht : f.tip? = some tip)
    (hrises : c.Rises tip) :
    f.Strides attempt .applying (some c)
      ((f.setCurrent c.stored).applied (.walk attempt target) top) := by
  unfold applied climb
  simp only
  split
  · exact .arrives ht hrises
  · exact .applies ht hrises rfl

theorem rises_of_on {header : Header} {tip : Tip} (step : ForwardStep) (hon : header.On tip) :
    (Commit.forward header.tip step.state header.parent step.undo).Rises tip :=
  ⟨⟨step.undo, by rw [← hon.parent]; rfl⟩, hon.height⟩

/-- A recorded block is above where the trail began, so its height has one below it. -/
theorem drops_of_record {v : View} {stored : StoredState} {record : UndoRecord}
    (h : Tracks commits held)
    (hrec : held.record v.current.tip = some record)
    (htip : stored.tip = ⟨lower v.current.tip.height, record.parent⟩) :
    (Commit.withoutUndo stored.tip stored.state).Drops v.current.tip := by
  have habove : 0 < v.current.tip.height.toNat := by
    cases h with
    | blank _ hnone =>
      rw [hnone] at hrec
      cases hrec
    | traced origin h => exact Nat.zero_lt_of_lt (h.above _ _ hrec)
  refine ⟨rfl, ?_⟩
  show v.current.tip.height.toNat = stored.tip.height.toNat + 1
  rw [htip]
  exact Ledger.toNat_eq_lower_succ habove

/-- A call in an attempt strides with each reply of its store. -/
theorem Yields.strides (h : f.Yields call reply done p) (hk : f.Knows commits held call)
    (htracks : Tracks commits held) (hs : call.stage? = some (attempt, stage)) :
    f.Strides attempt stage done p := by
  cases h with
  | fails n e hplace _ =>
    cases hplace.symm.trans hs
    exact .ends (.error e)
  | drops hnone _ => cases hnone.symm.trans hs
  | asks h =>
    rcases h.stage? with hsame | ⟨n, hasking, hcomparing⟩
    · exact .asks (hsame.trans hs)
    · cases hasking.symm.trans hs
      exact .compares hcomparing
  | rests n d e => cases hs
  | aborts e hnone => cases hnone.symm.trans hs
  | declines network e => cases hs
  | breaks network b => cases hs
  | halts _ _ => exact .halts _
  | lacks cause view block => exact .halts _
  | loads network initial stored => cases hs
  | creates network initial => cases hs
  | stands n info hv =>
    cases hs
    exact .ends (.ok ())
  | arrives n hle =>
    cases hs
    exact .ends (.ok ())
  | catchesUp n hlt =>
    cases hs
    exact .catchesUp rfl
  | reorganizes n target hne =>
    cases hs
    exact .reorganizes rfl
  | undoes cause stored =>
    obtain ⟨target, rfl, rfl⟩ := Cause.exists_walk hs
    obtain ⟨v, record, hv, hrec, htip⟩ := hk
    exact .undoes (tip?_of_view hv) (drops_of_record htracks hrec htip) rfl
  | prunes cause step hbelow =>
    obtain ⟨target, rfl, rfl⟩ := Cause.exists_walk hs
    obtain ⟨v, hv, hon⟩ := hk
    exact .applies (tip?_of_view hv) (rises_of_on step hon) rfl
  | applies cause header step =>
    obtain ⟨target, rfl, rfl⟩ := Cause.exists_walk hs
    obtain ⟨v, hv, hon⟩ := hk
    exact strides_applied target header.tip (tip?_of_view hv) (rises_of_on step hon)
  | pruned cause tip below reply =>
    obtain ⟨target, rfl, rfl⟩ := Cause.exists_walk hs
    exact strides_climb target tip

/-- A follower is uninitialized just as long as it has no tip. -/
def Candid (f : Follower) : Prop := f.state = .uninitialized ↔ f.view = none

/-- Only a follower with a tip walks, and only on a walk it is reorganizing. -/
def Admits (f : Follower) (call : Call) : Prop :=
  match call.stage? with
  | some _ => f.view.isSome
  | none => f.state ≠ .reorganizing

/-- A call that returns does not leave a follower reorganizing. -/
structure Fit (p : Follower × Next) : Prop where
  candid : p.1.Candid
  admits : ∀ call ∈ p.2.call?, p.1.Admits call
  settled : ∀ outcome, p.2 = .returned outcome → p.1.state ≠ .reorganizing

theorem candid_setState {state : SyncState} (hv : f.view.isSome) (hne : state ≠ .uninitialized) :
    (f.setState state).Candid := by
  simp [Candid, setState, publish, hne, Option.isSome_iff_ne_none.mp hv]

theorem Candid.setCurrent (h : f.Candid) (stored : StoredState) : (f.setCurrent stored).Candid := by
  unfold Candid
  rw [view_setCurrent, Option.map_eq_none_iff]
  exact h

theorem Candid.fail (h : f.Candid) : f.fail.Candid := by
  unfold Follower.fail
  split
  · exact h
  · next hne => exact candid_setState (Option.isSome_iff_ne_none.mpr (mt h.mpr hne)) (by decide)

theorem state_fail_ne : f.fail.state ≠ .reorganizing := by
  unfold fail
  split
  · next h => simp [h]
  · simp [setState, publish]

theorem Admits.isSome {place : Nat × Stage} (h : f.Admits call) (hs : call.stage? = some place) :
    f.view.isSome := by
  unfold Admits at h
  rwa [hs] at h

theorem Admits.state_ne (h : f.Admits call) (hs : call.stage? = none) :
    f.state ≠ .reorganizing := by
  unfold Admits at h
  rwa [hs] at h

theorem Admits.setCurrent (h : f.Admits call) (stored : StoredState) :
    (f.setCurrent stored).Admits call := by
  unfold Admits at h ⊢
  rw [view_setCurrent, Option.isSome_map]
  exact h

theorem Admits.asks {next : Call} (h : f.Asks call reply next) (ha : f.Admits call) :
    f.Admits next := by
  rcases h.stage? with hsame | ⟨n, hasking, hcomparing⟩
  · unfold Admits
    rw [hsame]
    exact ha
  · unfold Admits
    rw [hcomparing]
    exact ha.isSome hasking

theorem Fit.asks (hf : f.Candid) (ha : f.Admits call) : Fit (f, .asks call) where
  candid := hf
  admits := by
    rintro _ ⟨⟩
    exact ha
  settled := nofun

theorem Fit.rests (hf : f.Candid) (d : Duration) (ha : f.Admits call) : Fit (f, .rests d call) where
  candid := hf
  admits := by
    rintro _ ⟨⟩
    exact ha
  settled := nofun

theorem Fit.returned (hf : f.Candid) (outcome : Outcome) (hne : f.state ≠ .reorganizing) :
    Fit (f, .returned outcome) where
  candid := hf
  admits := nofun
  settled _ _ := hne

theorem Fit.halted (hf : f.Candid) (halt : Halt) : Fit (f, .halted halt) where
  candid := hf
  admits := nofun
  settled := nofun

theorem Candid.fit_fail (hf : f.Candid) : Fit (f.fail, .returned (.ok ())) :=
  .returned hf.fail (.ok ()) state_fail_ne

theorem Candid.fit_walkFailed (hf : f.Candid) (hv : f.view.isSome) (e : SyncError) :
    Fit (f.walkFailed attempt e) := by
  unfold walkFailed
  split
  · split
    · next d _ => exact .rests hf d hv
    · exact hf.fit_fail
  · exact hf.fit_fail

theorem fit_synced (hv : f.view.isSome) : Fit (f.setState .synced, .returned (.ok ())) :=
  .returned (candid_setState hv (by decide)) _ (by simp [setState, publish])

theorem fit_settled (network : Network) (initial : InitialState) (stored : StoredState) :
    Fit (f.settled network initial stored) :=
  .asks (candid_setState rfl (by decide)) rfl

theorem Candid.fit_retreated (hf : f.Candid) (cause : Cause) (stored : StoredState)
    (ha : f.Admits (.retreat cause stored)) : Fit (f.retreated cause stored) := by
  have hset := ha.setCurrent stored
  cases cause with
  | notified => exact .returned (hf.setCurrent stored) _ hset
  | walk n target => exact .asks (hf.setCurrent stored) hset

theorem Candid.fit_applied (hf : f.Candid) (ha : f.Admits call) {cause : Cause}
    (hs : call.stage? = cause.within .applying) (tip : Tip) : Fit (f.applied cause tip) := by
  cases cause with
  | notified => exact .returned hf _ (ha.state_ne hs)
  | walk n target =>
    have hv := ha.isSome hs
    unfold applied climb
    simp only
    split
    · exact fit_synced hv
    · exact .asks hf hv

/-- A call that is admitted leaves a follower fit with any reply. -/
theorem Yields.fit (h : f.Yields call reply done p) (hf : f.Candid) (ha : f.Admits call) : Fit p := by
  cases h with
  | fails n e hplace _ => exact hf.fit_walkFailed (ha.isSome hplace) e
  | drops _ _ => exact hf.fit_fail
  | asks h => exact .asks hf (ha.asks h)
  | rests n d e => exact .rests hf d ha
  | aborts e hnone => exact .returned hf _ (ha.state_ne hnone)
  | declines network e => exact .halted hf _
  | breaks network b => exact .halted hf _
  | halts _ _ => exact .halted hf _
  | lacks cause view block => exact .halted hf _
  | loads network initial stored => exact fit_settled network initial stored
  | creates network initial => exact fit_settled network initial _
  | stands n info hv => exact fit_synced ha
  | arrives n hle => exact fit_synced ha
  | catchesUp n hlt => exact .asks (candid_setState ha (by decide)) ha
  | reorganizes n target hne => exact .asks (candid_setState ha (by decide)) ha
  | undoes cause stored => exact hf.fit_retreated cause stored ha
  | prunes cause step hbelow => exact .asks (hf.setCurrent _) (ha.setCurrent _)
  | applies cause header step => exact (hf.setCurrent _).fit_applied (ha.setCurrent _) rfl header.tip
  | pruned cause tip below reply => exact hf.fit_applied ha rfl tip

theorem Candid.fit_started (hf : f.Candid) (hne : f.state ≠ .reorganizing) : Fit f.started := by
  unfold started
  split
  · next hv => exact .asks hf hv
  · exact .returned hf _ hne

theorem Candid.fit_notified (hf : f.Candid) (hne : f.state ≠ .reorganizing) (n : Notification) :
    Fit (f.notified n) := by
  obtain ⟨_, heq⟩ | heq | ⟨_, v, _, hv, heq | ⟨_, _, heq⟩ | ⟨_, heq⟩⟩ := f.notified_cases n
  · rw [heq]
    exact .halted hf _
  · rw [heq]
    exact .returned hf _ hne
  · rw [heq]
    exact .asks hf (show f.view.isSome by rw [hv]; rfl)
  · rw [heq]
    exact .asks hf hne
  · rw [heq]
    exact .asks hf hne

end Follower

namespace Snapshot

variable {T : Terms} {commits : List Commit} {m : Snapshot}

/-- An attempt strides with each reply in a history. -/
theorem History.strides (hT : T.Aligned) {f : Follower} {call : Call} {held : Holdings}
    (h : History T .empty commits ⟨f, .asks call, held⟩) {attempt : Nat} {stage : Stage}
    (hs : call.stage? = some (attempt, stage)) (reply : (f.request call).Reply) :
    f.Strides attempt stage ((f.request call).committed reply) (f.proceed call reply) := by
  obtain ⟨htracks, hknows⟩ := h.tracked hT
  exact (f.yields_proceed call reply).strides hknows htracks hs

theorem History.fit (h : History T .empty commits m) : Follower.Fit (m.follower, m.next) := by
  induction h with
  | start game retry pruning set =>
    exact .returned (by simp [Follower.Candid, Follower.start]) _ (by simp [Follower.start])
  | @turn commits done m m' h hturn ih =>
    cases hturn with
    | reply reply stored told =>
      exact (Follower.yields_proceed _ _ reply).fit ih.candid (ih.admits _ rfl)
    | wake => exact .asks ih.candid (ih.admits _ rfl)
    | initialized => exact .asks ih.candid (ih.settled _ rfl)
    | started => exact Follower.Candid.fit_started ih.candid (ih.settled _ rfl)
    | notified n told => exact Follower.Candid.fit_notified ih.candid (ih.settled _ rfl) n
    | restart game retry pruning set =>
      exact .returned (by simp [Follower.Candid, Follower.start]) _ (by simp [Follower.start])

end Snapshot

end ChainFollower
