import ChainFollower.Proofs.Sync.Life

namespace ChainFollower

namespace Rules

variable {R : Rules} {L : Ledger R.initial.tip} {held held' : Holdings} {f : Follower}
  {stored : StoredState}

/-- The current state is a replay, and each record is that of its block. -/
structure Sound (R : Rules) (L : Ledger R.initial.tip) (held : Holdings) : Prop where
  current : ∀ st, held.current = some st → ∃ bs, R.Stands L bs st
  record : ∀ tip record, held.record tip = some record → R.Recorded L tip record

/-- A commit after which a sound store is sound. -/
def Fair (R : Rules) (L : Ledger R.initial.tip) (c : Commit) : Prop :=
  (∃ bs, R.Stands L bs c.stored) ∧ ∀ record, c.undo = some record → R.Recorded L c.tip record

theorem sound_empty : R.Sound L .empty := ⟨by simp [Holdings.empty], by simp [Holdings.empty]⟩

theorem Sound.commit {c : Commit} (hs : R.Sound L held) (hc : R.Fair L c) :
    R.Sound L (held.commit c) := by
  refine ⟨?_, fun tip record hr => ?_⟩
  · intro st hst
    cases hst
    exact hc.1
  · rcases Holdings.record_commit_cases hr with ⟨rfl, hu⟩ | hr
    · exact hc.2 record hu
    · exact hs.record tip record hr

theorem Sound.dropBelow {height : UInt64} (hs : R.Sound L held) :
    R.Sound L (held.dropBelow height) :=
  ⟨hs.current, fun tip record h => hs.record tip record (Holdings.record_of_dropBelow h)⟩

/-- Also a store that fails stays sound, as long as the commits are fair. -/
theorem Sound.answers {r : Request} {reply : r.Reply} (hs : R.Sound L held)
    (fair : ∀ c, r = .commit c → R.Fair L c) (h : held.Answers r reply held') : R.Sound L held' := by
  have mixed : ∀ other : Holdings, R.Sound L other → held'.current = held.current →
      (∀ tip, held'.record tip = held.record tip ∨ held'.record tip = other.record tip) →
      R.Sound L held' := by
    intro other ho hcur hrec
    refine ⟨fun st hst => hs.current st (hcur ▸ hst), ?_⟩
    intro tip record hr
    rcases hrec tip with heq | heq
    · exact hs.record tip record (heq ▸ hr)
    · exact ho.record tip record (heq ▸ hr)
  cases r with
  | chain q => exact h ▸ hs
  | load => exact h.1 ▸ hs
  | commit c =>
    have hc := hs.commit (fair c rfl)
    cases reply with
    | ok u => exact h ▸ hc
    | error e => exact mixed _ hc h.1 h.2
  | undo tip => exact h.1 ▸ hs
  | prune height =>
    cases reply with
    | ok n => exact h ▸ hs.dropBelow
    | error e => exact mixed _ hs.dropBelow h.1 h.2
  | initial network => exact h ▸ hs
  | forward network state block => exact h ▸ hs
  | backward network state block undo => exact h ▸ hs

/-- What a follower takes for its current state is what its store holds. -/
structure Sees (R : Rules) (f : Follower) (held : Holdings) : Prop where
  game : f.game = R.game
  view : ∀ v, f.view = some v →
    v.network = R.network ∧ v.initial = R.initial.tip ∧ held.current = some v.current

theorem Sees.alike {g : Follower} (h : R.Sees f held) (ha : f.Alike g) : R.Sees g held :=
  ⟨ha.game.trans h.game, fun v hv => h.view v (ha.view ▸ hv)⟩

theorem Sees.congr (h : R.Sees f held) (hc : held'.current = held.current) : R.Sees f held' :=
  ⟨h.game, fun v hv => hc ▸ h.view v hv⟩

theorem Sees.setCurrent {stored : StoredState} (h : R.Sees f held)
    (hcur : held'.current = some stored) : R.Sees (f.setCurrent stored) held' := by
  refine ⟨h.game, ?_⟩
  intro v hv
  obtain ⟨w, hw, rfl⟩ := Option.map_eq_some_iff.mp hv
  obtain ⟨hn, hi, _⟩ := h.view w hw
  exact ⟨hn, hi, hcur⟩

/-- What a call in progress knows. -/
def Fits (R : Rules) (L : Ledger R.initial.tip) (f : Follower) : Call → Prop
  | .identify _ => True
  | .begin network => network = R.network
  | .resume network initial => network = R.network ∧ initial = R.initial
  | .create network initial => network = R.network ∧ initial = R.initial
  | .target _ => True
  | .compare _ _ tip => f.tip? = some tip
  | .fetchStale _ _ tip => f.tip? = some tip
  | .next _ _ tip => f.tip? = some tip
  | .fetchNext _ _ tip _ => f.tip? = some tip
  | .lookup _ view block =>
    f.view = some view ∧ ∃ header, L.Holds ⟨header, block⟩ ∧ header.tip = view.current.tip
  | .revert _ view block record =>
    f.view = some view ∧ ∃ b below before step, R.Applies L below before b step ∧
      block = b.payload ∧ view.current = ⟨b.tip, step.state⟩ ∧
      record = ⟨b.header.parent, step.undo⟩
  | .retreat _ stored => f.view.isSome ∧ ∃ bs, R.Stands L bs stored
  | .apply _ view header block =>
    f.view = some view ∧ L.Holds ⟨header, block⟩ ∧ header.parent = view.current.tip.hash
  | .advance _ header step =>
    f.view.isSome ∧ ∃ b below before, b.header = header ∧ R.Applies L below before b step
  | .prune _ tip _ => f.tip? = some tip

/-- A follower agrees with its store, and its call in progress with both. -/
def Coherent (R : Rules) (L : Ledger R.initial.tip) (held : Holdings)
    (p : Follower × Follower.Next) : Prop :=
  R.Sees p.1 held ∧ ∀ call ∈ p.2.call?, R.Fits L p.1 call

theorem Coherent.asks {call : Call} (hs : R.Sees f held) (hf : R.Fits L f call) :
    R.Coherent L held (f, .asks call) := by
  refine ⟨hs, ?_⟩
  intro other ho
  cases ho
  exact hf

theorem Coherent.returned {result : Follower.Outcome} (hs : R.Sees f held) :
    R.Coherent L held (f, .returned result) :=
  ⟨hs, by simp [Progress.call?]⟩

theorem Coherent.halted {halt : Halt} (hs : R.Sees f held) : R.Coherent L held (f, .halted halt) :=
  ⟨hs, by simp [Progress.call?]⟩

theorem coherent_walkFailed (hs : R.Sees f held) (attempt : Nat) (e : SyncError) :
    R.Coherent L held (f.walkFailed attempt e) := by
  obtain ⟨ha, hc⟩ := f.walkFailed_spec attempt e
  refine ⟨hs.alike ha, ?_⟩
  intro call hcall
  rw [hc call hcall]
  trivial

theorem coherent_climb (hs : R.Sees f held) (attempt : Nat) (target : Tip) {tip : Tip}
    (ht : f.tip? = some tip) : R.Coherent L held (f.climb attempt target tip) := by
  obtain ⟨ha, hc⟩ := f.climb_spec attempt target tip
  refine ⟨hs.alike ha, ?_⟩
  intro call hcall
  rw [hc call hcall]
  exact ha.tip?.trans ht

theorem coherent_retreated (hs : R.Sees (f.setCurrent stored) held) (cause : Cause)
    (hv : f.view.isSome) : R.Coherent L held (f.retreated cause stored) := by
  obtain ⟨v, hv⟩ := Option.isSome_iff_exists.mp hv
  cases cause with
  | notified => exact .returned hs
  | walk attempt target => exact .asks hs (Follower.tip?_setCurrent hv)

theorem coherent_applied (hs : R.Sees f held) (cause : Cause) {tip : Tip} (ht : f.tip? = some tip) :
    R.Coherent L held (f.applied cause tip) := by
  cases cause with
  | notified => exact .returned hs
  | walk attempt target => exact coherent_climb hs attempt target ht

theorem coherent_settled {stored : StoredState} (hg : f.game = R.game)
    (hc : held.current = some stored) :
    R.Coherent L held (f.settled R.network R.initial stored) := by
  refine .asks ⟨hg, ?_⟩ trivial
  intro v hv
  cases hv
  exact ⟨rfl, rfl, hc⟩

/-- Every commit that a call in progress asks for is fair. -/
theorem Fits.fair {call : Call} (hf : R.Fits L f call) {c : Commit}
    (hc : f.request call = .commit c) : R.Fair L c := by
  cases call with
  | create network initial =>
    cases hc
    obtain ⟨_, rfl⟩ := hf
    exact ⟨⟨[], stands_initial⟩, by simp [Commit.withoutUndo]⟩
  | retreat cause stored =>
    cases hc
    exact ⟨hf.2, by simp [Commit.withoutUndo]⟩
  | advance cause header step =>
    cases hc
    obtain ⟨_, b, below, before, rfl, ha⟩ := hf
    refine ⟨⟨b :: below, ha.stands_cons⟩, ?_⟩
    intro record hr
    cases hr
    exact ha.recorded
  | _ => cases hc

/-- The record of the local tip was made by the step over it, whose block the call has. -/
theorem Fits.revert {cause : Cause} {view : View} {block : Json} {record : UndoRecord}
    (hf : R.Fits L f (.lookup cause view block)) (hs : R.Sees f held) (hk : R.Sound L held)
    (hrecord : held.record view.current.tip = some record) :
    R.Fits L f (.revert cause view block record) := by
  obtain ⟨hv, header, hb, htip⟩ := hf
  obtain ⟨_, _, hcur⟩ := hs.view view hv
  obtain ⟨bs, hst⟩ := hk.current _ hcur
  obtain ⟨below, before, b, step, ha, hbt, hrec⟩ := hk.record _ _ hrecord
  have hbe : b = ⟨header, block⟩ := ha.holds.eq_of_tip hb (hbt.trans htip.symm)
  obtain ⟨_, hview⟩ := hst.unique ha.stands_cons hbt.symm
  exact ⟨hv, b, below, before, step, ha, by rw [hbe], hview, hrec⟩

/-- A step backwards leads to the state before the step over the local tip. -/
theorem Fits.retreat {cause : Cause} {view : View} {block : Json} {record : UndoRecord}
    (hf : R.Fits L f (.revert cause view block record)) {state : Bytes}
    (hstate : R.backward view.current.state block record.undo = some state) :
    R.Fits L f (.retreat cause ⟨⟨lower view.current.tip.height, record.parent⟩, state⟩) := by
  obtain ⟨hv, b, below, before, step, ha, rfl, hcur, rfl⟩ := hf
  rw [hcur] at hstate
  have hbefore := ha.before_eq hstate
  refine ⟨by rw [hv]; rfl, below, ?_⟩
  rw [hcur, ← hbefore]
  exact ha.stands

/-- A call that follows at once fits as well. -/
theorem Fits.asks {call next : Call} {reply : (f.request call).Reply} (h : f.Asks call reply next)
    (hf : R.Fits L f call) (hs : R.Sees f held) (hk : R.Sound L held)
    (stored : held.Answers (f.request call) reply held')
    (told : R.Answers L (f.request call) reply) : R.Fits L f next := by
  cases h with
  | begin attempt info => exact told info rfl
  | resume network initial => exact ⟨hf, told hf initial rfl⟩
  | create network initial => exact hf
  | compare attempt info hv => exact Follower.tip?_of_view hv
  | @lookup attempt target tip block header v hc hv =>
    obtain ⟨hp, htip⟩ := Follower.checkBlock_eq_ok hc
    have ht : tip = v.current.tip := Option.some.inj (hf.symm.trans (Follower.tip?_of_view hv))
    exact ⟨hv, header, told hs.game block rfl header hp, htip.trans ht⟩
  | fetchNext attempt target tip hash => exact hf
  | @apply attempt target tip requested block header v hc hparent hv =>
    obtain ⟨hp, _⟩ := Follower.checkBlock_eq_ok hc
    have ht : tip = v.current.tip := Option.some.inj (hf.symm.trans (Follower.tip?_of_view hv))
    exact ⟨hv, told hs.game block rfl header hp, hparent.trans (congrArg Tip.hash ht)⟩
  | revert cause view block record => exact hf.revert hs hk (stored.2 _ rfl).symm
  | retreat cause view block record state =>
    exact hf.retreat (told (hs.view view hf.1).1 state rfl)
  | advance cause view header block step =>
    obtain ⟨hv, hb, hparent⟩ := hf
    obtain ⟨hn, _, hcur⟩ := hs.view view hv
    obtain ⟨bs, hst⟩ := hk.current _ hcur
    exact ⟨by rw [hv]; rfl, ⟨header, block⟩, bs, view.current, rfl, hst, hb, hparent,
      told hn step rfl⟩

/-- A reply leaves follower and store in agreement. -/
theorem coherent_yields {call : Call} {reply : (f.request call).Reply} {done : Option Commit}
    {p : Follower × Follower.Next} (h : f.Yields call reply done p) (hs : R.Sees f held)
    (hk : R.Sound L held) (hf : R.Fits L f call)
    (stored : held.Answers (f.request call) reply held')
    (hcur : held'.current = (done.map Commit.stored).or held.current)
    (told : R.Answers L (f.request call) reply) : R.Coherent L held' p := by
  cases h with
  | fails attempt e _ _ => exact coherent_walkFailed (hs.congr hcur) attempt e
  | drops _ _ => exact .returned ((hs.congr hcur).alike Follower.alike_fail)
  | asks h => exact .asks (hs.congr hcur) (hf.asks h hs hk stored told)
  | rests attempt d e => exact ⟨hs.congr hcur, by rintro _ ⟨⟩; trivial⟩
  | aborts e _ => exact .returned (hs.congr hcur)
  | declines network e => exact .halted (hs.congr hcur)
  | breaks network b => exact .halted (hs.congr hcur)
  | halts _ _ => exact .halted (hs.congr hcur)
  | lacks cause view block => exact .halted (hs.congr hcur)
  | loads network initial found =>
    obtain ⟨rfl, rfl⟩ := hf
    obtain ⟨rfl, hfound⟩ := stored
    exact coherent_settled hs.game (hfound _ rfl).symm
  | creates network initial =>
    obtain ⟨rfl, rfl⟩ := hf
    exact coherent_settled hs.game hcur
  | stands attempt info hv => exact .returned ((hs.congr hcur).alike Follower.alike_setState)
  | arrives attempt hle => exact .returned ((hs.congr hcur).alike Follower.alike_setState)
  | catchesUp attempt hlt =>
    exact .asks ((hs.congr hcur).alike Follower.alike_setState)
      (Follower.alike_setState.tip?.trans hf)
  | reorganizes attempt target hne =>
    exact .asks ((hs.congr hcur).alike Follower.alike_setState)
      (Follower.alike_setState.tip?.trans hf)
  | undoes cause st => exact coherent_retreated (hs.setCurrent hcur) cause hf.1
  | prunes cause step hbelow =>
    obtain ⟨v, hv⟩ := Option.isSome_iff_exists.mp hf.1
    exact .asks (hs.setCurrent hcur) (Follower.tip?_setCurrent hv)
  | applies cause header step =>
    obtain ⟨v, hv⟩ := Option.isSome_iff_exists.mp hf.1
    exact coherent_applied (hs.setCurrent hcur) cause (Follower.tip?_setCurrent hv)
  | pruned cause tip below reply => exact coherent_applied (hs.congr hcur) cause hf

theorem coherent_started (hs : R.Sees f held) : R.Coherent L held f.started := by
  unfold Follower.started
  split
  · exact .asks hs trivial
  · exact .returned hs

theorem coherent_notified {n : Notification} (hs : R.Sees f held) (hk : R.Sound L held)
    (told : L.Admits n.payload) : R.Coherent L held (f.notified n) := by
  obtain ⟨_, heq⟩ | heq | ⟨header, v, hp, hv, hcases⟩ := f.notified_cases n
  · rw [heq]
    exact .halted hs
  · rw [heq]
    exact .returned hs
  · obtain heq | ⟨_, hparent, heq⟩ | ⟨hhash, heq⟩ := hcases
    · rw [heq]
      exact .asks hs trivial
    · rw [heq]
      exact .asks hs ⟨hv, told header hp, hparent⟩
    · rw [heq]
      -- The hash names the local tip, and with it the height.
      obtain ⟨bs, hst⟩ := hk.current _ (hs.view v hv).2.2
      have htop := hst.top_eq (told header hp) hhash
      have htip : header.tip = v.current.tip := by
        rw [← hst.tip_eq, htop]
        rfl
      exact .asks hs ⟨hv, header, told header hp, htip⟩

theorem coherent_start (retry : RetryPolicy) (pruning : Option UInt64)
    (result : Follower.Outcome) :
    R.Coherent L held (.start R.game retry pruning, .returned result) :=
  .returned ⟨rfl, by simp [Follower.start]⟩

end Rules

namespace Snapshot

variable {R : Rules} {L : Ledger R.initial.tip} {m m' : Snapshot}

/-- The invariant of a life. -/
structure Invariant (R : Rules) (L : Ledger R.initial.tip) (m : Snapshot) : Prop where
  sound : R.Sound L m.held
  coherent : R.Coherent L m.held (m.follower, m.next)

theorem Step.invariant (h : Step R L m m') (hm : Invariant R L m) : Invariant R L m' := by
  obtain ⟨hk, hs, hf⟩ := hm
  cases h with
  | reply reply stored told =>
    have hfits := hf _ rfl
    exact ⟨hk.answers (fun c hc => hfits.fair hc) stored,
      Rules.coherent_yields (Follower.yields_proceed _ _ reply) hs hk hfits stored stored.current_eq told⟩
  | wake => exact ⟨hk, hs, hf⟩
  | initialized => exact ⟨hk, .asks hs trivial⟩
  | started => exact ⟨hk, Rules.coherent_started hs⟩
  | notified n told => exact ⟨hk, Rules.coherent_notified hs hk told⟩
  | restart retry pruning => exact ⟨hk, Rules.coherent_start retry pruning _⟩

theorem Reached.invariant (h : Reached R L m) : Invariant R L m := by
  induction h with
  | start retry pruning => exact ⟨Rules.sound_empty, Rules.coherent_start retry pruning _⟩
  | step _ hstep ih => exact hstep.invariant ih

theorem Reached.stands (h : Reached R L m) {v : View} (hv : m.follower.view = some v) :
    ∃ bs, R.Stands L bs v.current :=
  h.invariant.sound.current _ (h.invariant.coherent.1.view v hv).2.2

/-- On the fork, the byte of `left` is about to be taken back. -/
theorem exists_reached_revert :
    ∃ f held view record, Reached Fork.rules Fork.ledger
        ⟨f, .asks (.revert .notified view Fork.left.payload record), held⟩ ∧
      f.view = some view ∧ view.current = ⟨Fork.left.tip, [0]⟩ := by
  have hdetach := Fork.reached_left.step
    (.notified ⟨"g", .detach, Fork.left.payload, 2, false⟩ Fork.admits_left)
  have hlookup := hdetach.reply (.lookup .notified Fork.view Fork.left.payload)
    (.ok (some ⟨Fork.start.header.hash, []⟩) : Except StoreError (Option UndoRecord))
    ⟨rfl, by rintro _ ⟨⟩; rfl⟩ trivial
  exact ⟨_, _, _, _, hlookup, rfl, rfl⟩

/-- The local state is the fold of the steps forwards over the one branch that ends at the local tip,
and whenever the game is asked for a step backwards, it gets what the step forwards over the local tip
was made with and has returned. -/
theorem reached_replays (h : Reached R L m) :
    (∀ v, m.follower.view = some v → ∃ bs, L.Branch bs ∧ (L.top bs).tip = v.current.tip ∧
      (∀ cs, L.Branch cs → (L.top cs).tip = v.current.tip → cs = bs) ∧
      bs.reverse.foldlM (fun state b => (R.forward state b.payload).map ForwardStep.state)
        R.initial.state = some v.current.state) ∧
    ∀ call network state block undo, m.next = .asks call →
      m.follower.request call = .backward network state block undo →
      ∃ b below before step, L.Branch (b :: below) ∧ m.follower.tip? = some b.tip ∧
        R.replay below = some before ∧ R.forward before b.payload = some step ∧
        network = R.network ∧ state = step.state ∧ block = b.payload ∧ undo = step.undo ∧
        R.backward state block undo = some before := by
  refine ⟨?_, ?_⟩
  · intro v hv
    obtain ⟨bs, hst⟩ := h.stands hv
    refine ⟨bs, hst.branch, hst.tip_eq, ?_, ?_⟩
    · intro cs hcs htip
      have htop : L.top cs = L.top bs :=
        hcs.holds_top.eq_of_tip hst.branch.holds_top (htip.trans hst.tip_eq.symm)
      exact hcs.unique hst.branch htop
    · rw [← Rules.replay_eq_foldlM]
      exact hst.replay_eq
  · intro call network state block undo hnext hreq
    have hfits := h.invariant.coherent.2 call (by rw [hnext]; rfl)
    cases call with
    | revert cause view payload record =>
      cases hreq
      obtain ⟨hv, b, below, before, step, ha, rfl, hcur, rfl⟩ := hfits
      refine ⟨b, below, before.state, step, ha.stands_cons.branch, ?_, ha.stands.replay_eq,
        ha.forward_eq, ?_, ?_, rfl, rfl, ?_⟩
      · rw [Follower.tip?_of_view hv, hcur]
      · exact (h.invariant.coherent.1.view view hv).1
      · rw [hcur]
      · rw [hcur]
        exact ha.backward_eq
    | _ => cases hreq

theorem reached_replays_fork :
    ∃ m, Reached Fork.rules Fork.ledger m ∧
      (∃ v, m.follower.view = some v ∧ ∃ bs, Fork.ledger.Branch bs ∧
        (Fork.ledger.top bs).tip = Fork.left.tip ∧
        bs.reverse.foldlM
          (fun state b => (Fork.rules.forward state b.payload).map ForwardStep.state)
          Fork.rules.initial.state = some [0]) ∧
      ∃ call network state block undo before, m.next = .asks call ∧
        m.follower.request call = .backward network state block undo ∧ state = [0] ∧
        Fork.rules.backward state block undo = some before := by
  obtain ⟨f, held, view, record, hm, hv, hcur⟩ := exists_reached_revert
  obtain ⟨hreplay, hback⟩ := reached_replays hm
  refine ⟨_, hm, ⟨view, hv, ?_⟩, ?_⟩
  · obtain ⟨bs, hbranch, htop, _, hfold⟩ := hreplay view hv
    rw [hcur] at htop hfold
    exact ⟨bs, hbranch, htop, hfold⟩
  · obtain ⟨_, _, before, _, _, _, _, _, _, _, _, _, hb⟩ := hback _ _ _ _ _ rfl rfl
    exact ⟨_, _, _, _, _, before, rfl, rfl, by rw [hcur], hb⟩

end Snapshot

end ChainFollower
