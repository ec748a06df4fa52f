import ChainFollower.Proofs.Sync.Publishing

namespace ChainFollower

/-- What is promised of the world around followers. -/
structure Terms where
  /-- What may be replied to a request, besides what its store holds. -/
  replies : (r : Request) → r.Reply → Prop
  /-- What a follower may be notified of. -/
  notes : Follower → Notification → Prop
  /-- How a follower may be set up. -/
  starts : Follower → Prop

/-- Nothing is promised. -/
def Terms.free : Terms := ⟨fun _ _ => True, fun _ _ => True, fun _ => True⟩

/-- These terms are kept by a chain of these blocks and a game with these rules. -/
structure Terms.Within (T : Terms) (R : Rules) (L : Ledger R.initial.tip) : Prop where
  replies : ∀ r reply, T.replies r reply → R.Answers L r reply
  notes : ∀ f note, T.notes f note → L.Admits note.payload
  starts : ∀ f, T.starts f → f.game = R.game

namespace Snapshot

variable {T : Terms} {held₀ : Holdings} {commits : List Commit} {done : Option Commit}
  {m m' : Snapshot}

/-- One turn of a history, and what is committed in it. -/
inductive Turn (T : Terms) : Option Commit → Snapshot → Snapshot → Prop
  | reply {f : Follower} {call : Call} {held held' : Holdings} (reply : (f.request call).Reply)
      (stored : held.Answers (f.request call) reply held')
      (told : T.replies (f.request call) reply) :
      Turn T ((f.request call).committed reply) ⟨f, .asks call, held⟩
        ⟨(f.proceed call reply).1, (f.proceed call reply).2, held'⟩
  | wake {f : Follower} {d : Duration} {call : Call} {held : Holdings} :
      Turn T none ⟨f, .rests d call, held⟩ ⟨f, .asks call, held⟩
  | initialized {f : Follower} {result : Follower.Outcome} {held : Holdings} :
      Turn T none ⟨f, .returned result, held⟩ ⟨f.initialized.1, f.initialized.2, held⟩
  | started {f : Follower} {result : Follower.Outcome} {held : Holdings} :
      Turn T none ⟨f, .returned result, held⟩ ⟨f.started.1, f.started.2, held⟩
  | notified {f : Follower} {result : Follower.Outcome} {held : Holdings} (n : Notification)
      (told : T.notes f n) :
      Turn T none ⟨f, .returned result, held⟩ ⟨(f.notified n).1, (f.notified n).2, held⟩
  | restart {f : Follower} {next : Follower.Next} {held : Holdings} (game : String)
      (retry : RetryPolicy) (pruning : Option UInt64)
      (set : T.starts (.start game retry pruning)) :
      Turn T none ⟨f, next, held⟩ ⟨.start game retry pruning, .returned (.ok ()), held⟩

/-- The moments of all histories on a store that holds `held₀` before the first commit. -/
inductive History (T : Terms) (held₀ : Holdings) : List Commit → Snapshot → Prop
  | start (game : String) (retry : RetryPolicy) (pruning : Option UInt64)
      (set : T.starts (.start game retry pruning)) :
      History T held₀ [] ⟨.start game retry pruning, .returned (.ok ()), held₀⟩
  | turn {commits : List Commit} {done : Option Commit} {m m' : Snapshot} :
      History T held₀ commits m → Turn T done m m' → History T held₀ (done.toList ++ commits) m'

theorem History.reply {f : Follower} (call : Call) {held held' : Holdings}
    (h : History T held₀ commits ⟨f, .asks call, held⟩) (reply : (f.request call).Reply)
    (stored : held.Answers (f.request call) reply held')
    (told : T.replies (f.request call) reply) :
    History T held₀ (((f.request call).committed reply).toList ++ commits)
      ⟨(f.proceed call reply).1, (f.proceed call reply).2, held'⟩ :=
  .turn h (.reply reply stored told)

theorem started_fst (f : Follower) : f.started.1 = f := by
  unfold Follower.started
  split
  · rfl
  · rfl

/-- A notification alone changes nothing. -/
theorem notified_fst (f : Follower) (n : Notification) : (f.notified n).1 = f := by
  obtain ⟨_, heq⟩ | heq | ⟨_, _, _, _, heq | ⟨_, _, heq⟩ | ⟨_, heq⟩⟩ := f.notified_cases n <;>
    rw [heq]

/-- A follower that has a current state has that of its store, and watchers see its status. -/
structure Agrees (m : Snapshot) : Prop where
  view : ∀ v, m.follower.view = some v → m.held.current = some v.current
  published : m.follower.watch.last = m.follower.status

theorem Turn.current_eq (h : Turn T done m m') :
    m'.held.current = (done.map Commit.stored).or m.held.current := by
  cases h with
  | reply reply stored told => exact stored.current_eq
  | wake => rfl
  | initialized => rfl
  | started => rfl
  | notified n told => rfl
  | restart game retry pruning set => rfl

theorem Agrees.becomes {f g : Follower} {next next' : Follower.Next} {held held' : Holdings}
    (hm : Agrees ⟨f, next, held⟩) (hcur : held'.current = (done.map Commit.stored).or held.current)
    (h : f.Becomes held'.current done g) : Agrees ⟨g, next', held'⟩ := by
  cases h with
  | restated h =>
    refine ⟨?_, h.last_eq hm.published⟩
    intro v hv
    rw [hcur]
    exact hm.view v (h.alike.view ▸ hv)
  | moved c hc h =>
    refine ⟨?_, h.last_eq Watch.last_publish⟩
    intro v hv
    have hg : g.view = f.view.map fun w => { w with current := c.stored } := h.alike.view
    obtain ⟨w, _, rfl⟩ := Option.map_eq_some_iff.mp (hg.symm.trans hv)
    exact hc
  | opened hc =>
    refine ⟨?_, Watch.last_publish⟩
    intro v hv
    cases hv
    exact hc

theorem Turn.agrees (h : Turn T done m m') (hm : Agrees m) : Agrees m' := by
  cases h with
  | reply reply stored told =>
    exact hm.becomes stored.current_eq (Follower.becomes_proceed stored)
  | wake => exact ⟨hm.view, hm.published⟩
  | initialized => exact ⟨hm.view, hm.published⟩
  | started => exact ⟨by rw [started_fst]; exact hm.view, by rw [started_fst]; exact hm.published⟩
  | notified n told =>
    exact ⟨by rw [notified_fst]; exact hm.view, by rw [notified_fst]; exact hm.published⟩
  | restart game retry pruning set => exact ⟨by simp [Follower.start], rfl⟩

/-- What is published in a turn is about the tip that the follower has then. A follower that is set up
anew has new watchers. -/
theorem Turn.publishes (h : Turn T done m m') :
    ∃ new old, m'.follower.watch.history = new ++ old ∧
      (old = m.follower.watch.history ∨ old = []) ∧ ∀ s ∈ new, s.tip = m'.follower.tip? := by
  cases h with
  | reply reply stored told =>
    obtain ⟨new, heq, hnew⟩ := (Follower.becomes_proceed stored).publishes
    exact ⟨new, _, heq, .inl rfl, hnew⟩
  | wake => exact ⟨[], _, rfl, .inl rfl, by simp⟩
  | initialized => exact ⟨[], _, rfl, .inl rfl, by simp⟩
  | started => exact ⟨[], _, by rw [started_fst]; rfl, .inl rfl, by simp⟩
  | notified n told => exact ⟨[], _, by rw [notified_fst]; rfl, .inl rfl, by simp⟩
  | restart game retry pruning set =>
    refine ⟨[.uninitialized], [], rfl, .inr rfl, ?_⟩
    intro s hmem
    rw [List.mem_singleton.mp hmem]
    rfl

theorem History.agrees (h : History T held₀ commits m) : Agrees m := by
  induction h with
  | start game retry pruning set => exact ⟨by simp [Follower.start], rfl⟩
  | turn _ hturn ih => exact hturn.agrees ih

/-- The store holds what was committed last. -/
theorem History.current_eq (h : History T held₀ commits m) :
    m.held.current = (commits.head?.map Commit.stored).or held₀.current := by
  induction h with
  | start game retry pruning set => rfl
  | @turn commits done m m' _ hturn ih =>
    rw [hturn.current_eq, ih]
    cases done with
    | none => rfl
    | some c => rfl

theorem History.tip_committed (h : History T held₀ commits m) {tip : Tip}
    (ht : m.follower.tip? = some tip) :
    ∃ st, (st ∈ commits.map Commit.stored ∨ held₀.current = some st) ∧ st.tip = tip := by
  obtain ⟨v, hv, rfl⟩ := Follower.exists_view_of_tip? ht
  refine ⟨v.current, ?_, rfl⟩
  have hcur := h.agrees.view v hv
  rw [h.current_eq] at hcur
  cases commits with
  | nil => exact .inr hcur
  | cons c earlier =>
    have hc : c.stored = v.current := Option.some.inj hcur
    exact .inl (by simp [hc])

/-- Nobody sees a tip that was not committed, or stored before. -/
theorem History.seen_committed (h : History T held₀ commits m) {s : Status}
    (hs : s ∈ m.follower.watch.history) {tip : Tip} (ht : s.tip = some tip) :
    ∃ st, (st ∈ commits.map Commit.stored ∨ held₀.current = some st) ∧ st.tip = tip := by
  induction h with
  | start game retry pruning set =>
    have heq : s = .uninitialized := by simpa [Follower.start, Watch.start, Watch.history] using hs
    rw [heq] at ht
    cases ht
  | @turn commits done m m' h hturn ih =>
    obtain ⟨new, old, heq, hold, hnew⟩ := hturn.publishes
    rw [heq] at hs
    rcases List.mem_append.mp hs with hs | hs
    · exact (h.turn hturn).tip_committed ((hnew s hs).symm.trans ht)
    · rcases hold with rfl | rfl
      · obtain ⟨st, hst, htip⟩ := ih hs
        refine ⟨st, hst.imp (fun hmem => ?_) id, htip⟩
        rw [List.map_append]
        exact List.mem_append_right _ hmem
      · cases hs

/-- A reply with which nothing is committed leaves the current state as it is. -/
theorem Agrees.current_stays {f : Follower} {call : Call} {held held' : Holdings}
    {reply : (f.request call).Reply} (hm : Agrees ⟨f, .asks call, held⟩)
    (stored : held.Answers (f.request call) reply held')
    (hnone : (f.request call).committed reply = none) {v : View} (hv : f.view = some v) :
    held'.current = some v.current ∧
      ∃ w, (f.proceed call reply).1.view = some w ∧ w.current = v.current := by
  have hcur : held'.current = some v.current := by
    rw [stored.current_eq, hnone]
    exact hm.view v hv
  have h := Follower.becomes_proceed stored
  rw [hnone] at h
  generalize (f.proceed call reply).1 = g at h
  refine ⟨hcur, ?_⟩
  cases h with
  | restated h => exact ⟨v, h.alike.view.trans hv, rfl⟩
  | opened hc => exact ⟨_, rfl, Option.some.inj (hc.symm.trans hcur)⟩

/-- A life is a history, whatever else is promised in it. -/
theorem Step.turn {R : Rules} {L : Ledger R.initial.tip} (h : Step R L m m') :
    ∃ done, Turn .free done m m' := by
  cases h with
  | reply reply stored told => exact ⟨_, .reply reply stored trivial⟩
  | wake => exact ⟨_, .wake⟩
  | initialized => exact ⟨_, .initialized⟩
  | started => exact ⟨_, .started⟩
  | notified n told => exact ⟨_, .notified n trivial⟩
  | restart retry pruning => exact ⟨_, .restart R.game retry pruning trivial⟩

theorem Reached.history {R : Rules} {L : Ledger R.initial.tip} (h : Reached R L m) :
    ∃ commits, History .free .empty commits m := by
  induction h with
  | start retry pruning => exact ⟨_, .start R.game retry pruning trivial⟩
  | step _ hstep ih =>
    obtain ⟨commits, hm⟩ := ih
    obtain ⟨done, hturn⟩ := hstep.turn
    exact ⟨_, hm.turn hturn⟩

/-- Within the terms of a life, a history is a life. -/
theorem Turn.step {R : Rules} {L : Ledger R.initial.tip} (hT : T.Within R L)
    (h : Turn T done m m') : Step R L m m' := by
  cases h with
  | reply reply stored told => exact .reply reply stored (hT.replies _ _ told)
  | wake => exact .wake
  | initialized => exact .initialized
  | started => exact .started
  | notified note told => exact .notified note (hT.notes _ _ told)
  | restart game retry pruning set =>
    have hgame : game = R.game := hT.starts _ set
    rw [hgame]
    exact .restart retry pruning

theorem History.reached {R : Rules} {L : Ledger R.initial.tip} (hT : T.Within R L)
    (h : History T .empty commits m) : Reached R L m := by
  induction h with
  | start game retry pruning set =>
    have hgame : game = R.game := hT.starts _ set
    rw [hgame]
    exact .start retry pruning
  | turn _ hturn ih => exact ih.step (hturn.step hT)

/-- In every moment memory holds what the store holds, which is what was committed last; a status is
published when the store holds the tip that it names, and the last one is that of the follower. A reply
that does not commit moves nothing. -/
theorem memory_agrees_with_store (h : History T held₀ commits m) :
    (∀ v, m.follower.view = some v → m.held.current = some v.current) ∧
    m.held.current = (commits.head?.map Commit.stored).or held₀.current ∧
    m.follower.watch.last = m.follower.status ∧
    (∀ s ∈ m.follower.watch.history, ∀ tip, s.tip = some tip →
      ∃ st, (st ∈ commits.map Commit.stored ∨ held₀.current = some st) ∧ st.tip = tip) ∧
    (∀ done m', Turn T done m m' → ∃ new old, m'.follower.watch.history = new ++ old ∧
      (old = m.follower.watch.history ∨ old = []) ∧ ∀ s ∈ new, s.tip = m'.follower.tip? ∧
        ∀ v, m'.follower.view = some v → m'.held.current = some v.current) ∧
    ∀ call reply held', m.next = .asks call →
      m.held.Answers (m.follower.request call) reply held' →
      (m.follower.request call).committed reply = none → ∀ v, m.follower.view = some v →
      held'.current = some v.current ∧
        ∃ w, (m.follower.proceed call reply).1.view = some w ∧ w.current = v.current := by
  refine ⟨h.agrees.view, h.current_eq, h.agrees.published, fun s hs tip ht => h.seen_committed hs ht,
    ?_, ?_⟩
  · intro done m' hturn
    obtain ⟨new, old, heq, hold, hnew⟩ := hturn.publishes
    exact ⟨new, old, heq, hold, fun s hs => ⟨hnew s hs, (hturn.agrees h.agrees).view⟩⟩
  · intro call reply held' hnext stored hnone v hv
    obtain ⟨f, next, held⟩ := m
    obtain rfl : next = .asks call := hnext
    exact h.agrees.current_stays stored hnone hv

/-- A commit has failed on the fork. -/
theorem memory_agrees_with_store_fork :
    ∃ commits m v, History .free .empty commits m ∧ m.follower.view = some v ∧
      m.follower.state = .catchingUp ∧ v.current = ⟨Fork.start.tip, []⟩ ∧
      m.held.current = some v.current ∧
      m.follower.watch.last = ⟨.catchingUp, some Fork.start.tip⟩ := by
  obtain ⟨commits, h⟩ := Fork.reached_behind.history
  obtain ⟨hview, _, hlast, _⟩ := memory_agrees_with_store h
  exact ⟨commits, _, ⟨.regtest, Fork.start.tip, ⟨Fork.start.tip, []⟩⟩, h, rfl, rfl, rfl,
    hview _ rfl, hlast⟩

end Snapshot

end ChainFollower
