import ChainFollower.Proofs.Sync.Retention
import ChainFollower.Proofs.Sync.Stages

namespace ChainFollower

open Commit (summit Stacked)

namespace Commit

/-- Each of these commits takes back the block at which the earlier ones ended. -/
def Peeled (origin : Tip) : List Commit → Prop
  | [] => True
  | c :: earlier => c.Drops (summit origin earlier) ∧ Peeled origin earlier

/-- What watchers see of commits made in this state. -/
def shown (state : SyncState) (commits : List Commit) : List Status :=
  commits.map fun c => ⟨state, some c.tip⟩

variable {c : Commit} {tip : Tip}

theorem Drops.tip_ne (h : c.Drops tip) : c.tip ≠ tip := by
  have hheight := h.height
  intro heq
  rw [heq] at hheight
  omega

theorem Rises.tip_ne (h : c.Rises tip) : c.tip ≠ tip := by
  have hheight := h.height
  intro heq
  rw [heq] at hheight
  omega

end Commit

open Commit (Peeled shown)

namespace Follower

variable {f f₀ g : Follower} {state : SyncState} {tip : Tip} {attempt : Nat} {stage : Stage}
  {call : Call} {c : Commit} {commits undone applied : List Commit} {done : Option Commit}
  {p : Follower × Next}

/-- On a leg in this state watchers see at most where it begins, and then the tip after each commit. -/
structure Leg (state : SyncState) (f : Follower) (start : Tip) (commits : List Commit) (g : Follower) :
    Prop where
  state_eq : g.state = state
  tip_eq : g.tip? = some (summit start commits)
  seen : ∃ first, first.Sublist [⟨state, some start⟩] ∧
    g.watch.history = shown state commits ++ first ++ f.watch.history

theorem history_setState (f : Follower) (state : SyncState) :
    ∃ new, new.Sublist [⟨state, f.tip?⟩] ∧ (f.setState state).watch.history = new ++ f.watch.history := by
  simp only [setState, publish, Watch.history_publish]
  split
  · exact ⟨[], List.nil_sublist _, rfl⟩
  · exact ⟨[⟨state, f.tip?⟩], List.Sublist.refl _, rfl⟩

/-- A status that is published already is not published again. -/
theorem setState_state (h : f.watch.last = f.status) : f.setState f.state = f := by
  obtain ⟨game, retry, pruning, state, view, watch⟩ := f
  have hpublish : watch.publish ⟨state, view.map fun v => v.current.tip⟩ = watch := if_pos h
  simp only [setState, publish, status, tip?, hpublish]

theorem Leg.setState (ht : f.tip? = some tip) (state : SyncState) :
    Leg state f tip [] (f.setState state) where
  state_eq := rfl
  tip_eq := ht
  seen := by
    obtain ⟨new, hnew, heq⟩ := history_setState f state
    rw [ht] at hnew
    exact ⟨new, hnew, heq⟩

/-- With another tip, the status is published. -/
theorem Leg.commit (h : Leg state f tip commits g) (hlast : g.watch.last = g.status)
    (hne : c.tip ≠ summit tip commits) :
    Leg state f tip (c :: commits) (g.setCurrent c.stored) where
  state_eq := h.state_eq
  tip_eq := by
    obtain ⟨v, hv, _⟩ := exists_view_of_tip? h.tip_eq
    exact tip?_setCurrent hv
  seen := by
    obtain ⟨first, hfirst, heq⟩ := h.seen
    obtain ⟨v, hv, _⟩ := exists_view_of_tip? h.tip_eq
    refine ⟨first, hfirst, ?_⟩
    have hstatus : (g.setCurrent c.stored).status = ⟨state, some c.tip⟩ := by
      unfold status
      rw [tip?_setCurrent hv]
      exact congrArg (Status.mk · _) h.state_eq
    have hnew : g.watch.last ≠ ⟨state, some c.tip⟩ := by
      rw [hlast]
      intro hcontra
      have htip : some (summit tip commits) = some c.tip :=
        h.tip_eq.symm.trans (congrArg Status.tip hcontra)
      exact hne (Option.some.inj htip).symm
    have hwatch : (g.setCurrent c.stored).watch = g.watch.publish (g.setCurrent c.stored).status := rfl
    rw [hwatch, hstatus, Watch.history_publish, if_neg hnew, heq]
    rfl

/-- The way down from `tip`, if there is one. -/
inductive Descends (f : Follower) (tip : Tip) : List Commit → Follower → Prop
  | level : Descends f tip [] f
  | leg {undone : List Commit} {g : Follower} : Peeled tip undone →
      Leg .reorganizing f tip undone g → Descends f tip undone g

/-- How far an attempt is that began with `f₀` at `tip`. -/
inductive Underway (f₀ : Follower) (tip : Tip) : List Commit → Follower → Stage → Prop
  | asking : Underway f₀ tip [] f₀ .asking
  | comparing {undone : List Commit} {f : Follower} : Descends f₀ tip undone f →
      Underway f₀ tip undone f .comparing
  | undoing {undone : List Commit} {f : Follower} : Peeled tip undone →
      Leg .reorganizing f₀ tip undone f → Underway f₀ tip undone f .undoing
  | applying {undone applied : List Commit} {f g : Follower} : Descends f₀ tip undone g →
      Stacked (summit tip undone) applied → Leg .catchingUp g (summit tip undone) applied f →
      Underway f₀ tip (applied ++ undone) f .applying

/-- What an attempt that began with `f₀` at `tip` has committed and shown: it has taken back `undone`,
then it has applied `applied`. -/
structure Course (f₀ : Follower) (tip : Tip) (undone applied : List Commit) (f : Follower) : Prop where
  down : Peeled tip undone
  up : Stacked (summit tip undone) applied
  tip_eq : f.tip? = some (summit (summit tip undone) applied)
  seen : ∃ back forth, back.Sublist [⟨.reorganizing, some tip⟩] ∧
    forth.Sublist [⟨.catchingUp, some (summit tip undone)⟩] ∧
    f.watch.history = shown .catchingUp applied ++ forth ++
      (shown .reorganizing undone ++ back ++ f₀.watch.history)

theorem Descends.tip_eq (h : Descends f₀ tip undone f) (ht : f₀.tip? = some tip) :
    f.tip? = some (summit tip undone) := by
  cases h with
  | level => exact ht
  | leg _ hleg => exact hleg.tip_eq

theorem Descends.peeled (h : Descends f₀ tip undone f) : Peeled tip undone := by
  cases h with
  | level => trivial
  | leg hdown _ => exact hdown

theorem Descends.seen (h : Descends f₀ tip undone f) :
    ∃ back, back.Sublist [⟨.reorganizing, some tip⟩] ∧
      f.watch.history = shown .reorganizing undone ++ back ++ f₀.watch.history := by
  cases h with
  | level => exact ⟨[], List.nil_sublist _, rfl⟩
  | leg _ hleg => exact hleg.seen

theorem Descends.course (h : Descends f₀ tip undone f) (ht : f₀.tip? = some tip) :
    Course f₀ tip undone [] f := by
  obtain ⟨back, hback, heq⟩ := h.seen
  exact ⟨h.peeled, trivial, h.tip_eq ht, back, [], hback, List.nil_sublist _, heq⟩

theorem Underway.course (h : Underway f₀ tip commits f stage) (ht : f₀.tip? = some tip) :
    ∃ undone applied, commits = applied ++ undone ∧ Course f₀ tip undone applied f := by
  cases h with
  | asking => exact ⟨[], [], rfl, Descends.level.course ht⟩
  | comparing hdown => exact ⟨commits, [], rfl, hdown.course ht⟩
  | undoing hdown hleg => exact ⟨commits, [], rfl, (Descends.leg hdown hleg).course ht⟩
  | @applying undone applied _ g hdown hup hleg =>
    obtain ⟨back, hback, hseen⟩ := hdown.seen
    obtain ⟨forth, hforth, heq⟩ := hleg.seen
    rw [hseen] at heq
    exact ⟨undone, applied, rfl, hdown.peeled, hup, hleg.tip_eq, back, forth, hback, hforth, heq⟩

/-- What is known of an attempt with each reply. -/
inductive Walking (f₀ : Follower) (tip : Tip) (attempt : Nat) (commits : List Commit) :
    Follower × Next → Prop
  | asks {f : Follower} {call : Call} {stage : Stage} : Underway f₀ tip commits f stage →
      call.stage? = some (attempt, stage) → Walking f₀ tip attempt commits (f, .asks call)
  | ended {f : Follower} {stage : Stage} (result : Outcome) : Underway f₀ tip commits f stage →
      Walking f₀ tip attempt commits (f.concluded attempt result)
  | halted {f : Follower} {stage : Stage} (halt : Halt) : Underway f₀ tip commits f stage →
      Walking f₀ tip attempt commits (f, .halted halt)

theorem Underway.undoes (h : Underway f₀ tip commits f .undoing) (hlast : f.watch.last = f.status)
    {top : Tip} (htop : f.tip? = some top) (hdrops : c.Drops top) :
    Underway f₀ tip (c :: commits) (f.setCurrent c.stored) .comparing := by
  cases h with
  | undoing hdown hleg =>
    obtain rfl : top = summit tip commits := Option.some.inj (htop.symm.trans hleg.tip_eq)
    exact .comparing (.leg ⟨hdrops, hdown⟩ (hleg.commit hlast hdrops.tip_ne))

theorem Underway.applies (h : Underway f₀ tip commits f .applying) (hlast : f.watch.last = f.status)
    {top : Tip} (htop : f.tip? = some top) (hrises : c.Rises top) :
    Underway f₀ tip (c :: commits) (f.setCurrent c.stored) .applying := by
  cases h with
  | @applying undone applied _ g hdown hup hleg =>
    obtain rfl : top = summit (summit tip undone) applied :=
      Option.some.inj (htop.symm.trans hleg.tip_eq)
    have hup' : Stacked (summit tip undone) (c :: applied) := ⟨hrises.undo, hrises.height, hup⟩
    exact .applying hdown hup' (hleg.commit hlast hrises.tip_ne)

/-- With each stride an attempt stays on its course. -/
theorem Underway.strides (h : Underway f₀ tip commits f stage) (ht : f₀.tip? = some tip)
    (hlast : f.watch.last = f.status) (hs : f.Strides attempt stage done p) :
    Walking f₀ tip attempt (done.toList ++ commits) p := by
  cases hs with
  | asks hcall => exact .asks h hcall
  | ends result => exact .ended result h
  | halts halt => exact .halted halt h
  | compares hcall =>
    cases h
    exact .asks (.comparing .level) hcall
  | reorganizes hcall =>
    cases h with
    | comparing hdown =>
      refine .asks (.undoing hdown.peeled ?_) hcall
      cases hdown with
      | level => exact .setState ht .reorganizing
      | leg _ hleg =>
        -- Below the first block the state is published already.
        have hstays := setState_state hlast
        rw [hleg.state_eq] at hstays
        exact hstays.symm ▸ hleg
  | catchesUp hcall =>
    cases h with
    | comparing hdown =>
      have hleg := Leg.setState (hdown.tip_eq ht) .catchingUp
      have hup : Underway f₀ tip ([] ++ commits) (f.setState .catchingUp) .applying :=
        .applying hdown trivial hleg
      exact .asks hup hcall
  | undoes htop hdrops hcall => exact .asks (h.undoes hlast htop hdrops) hcall
  | applies htop hrises hcall => exact .asks (h.applies hlast htop hrises) hcall
  | arrives htop hrises => exact .ended (.ok ()) (h.applies hlast htop hrises)

/-- While an attempt touches blocks, watchers see the state for it. -/
theorem Underway.phase (h : Underway f₀ tip commits f stage) (hlast : f.watch.last = f.status)
    (hphase : stage.phase? = some state) : f.watch.last.state = state := by
  rw [hlast]
  cases h with
  | asking => cases hphase
  | comparing _ => cases hphase
  | undoing _ hleg =>
    cases hphase
    exact hleg.state_eq
  | applying _ _ hleg =>
    cases hphase
    exact hleg.state_eq

/-- The state in which a follower is left by a walk. -/
def leftIn : Outcome → SyncState
  | .ok () => .synced
  | .error _ => .catchingUp

theorem fail_state (h : f.state ≠ .uninitialized) : f.fail.state = .catchingUp := by
  unfold fail
  rw [if_neg h]
  rfl

/-- An attempt that ends leaves the follower to the next one as it is, or it is the last one. -/
theorem concluded_spec (hf : f.state ≠ .uninitialized) (result : Outcome) :
    (∃ d, f.concluded attempt result = (f, .rests d (.target (attempt + 1)))) ∨
      ((f.concluded attempt result).2 = .returned (.ok ()) ∧
        (f.concluded attempt result).1.state = leftIn result) := by
  cases result with
  | ok u => exact .inr ⟨rfl, rfl⟩
  | error e =>
    unfold concluded walkFailed
    simp only
    split
    · split
      · next d _ => exact .inl ⟨d, rfl⟩
      · exact .inr ⟨rfl, fail_state hf⟩
    · exact .inr ⟨rfl, fail_state hf⟩

theorem history_fail (f : Follower) :
    ∃ new, new.Sublist [⟨.catchingUp, f.tip?⟩] ∧ f.fail.watch.history = new ++ f.watch.history := by
  unfold fail
  split
  · exact ⟨[], List.nil_sublist _, rfl⟩
  · exact history_setState f .catchingUp

/-- The end of an attempt is seen in at most one status. -/
theorem history_concluded (f : Follower) (attempt : Nat) (result : Outcome) :
    ∃ new, new.Sublist [⟨leftIn result, f.tip?⟩] ∧
      (f.concluded attempt result).1.watch.history = new ++ f.watch.history := by
  cases result with
  | ok u => exact history_setState f .synced
  | error e =>
    unfold concluded walkFailed
    simp only
    split
    · split
      · exact ⟨[], List.nil_sublist _, rfl⟩
      · exact history_fail f
    · exact history_fail f

theorem Underway.opened (h : Underway f₀ tip commits f stage) (h₀ : f₀.state ≠ .uninitialized) :
    f.state ≠ .uninitialized := by
  cases h with
  | asking => exact h₀
  | comparing hdown =>
    cases hdown with
    | level => exact h₀
    | leg _ hleg => simp [hleg.state_eq]
  | undoing _ hleg => simp [hleg.state_eq]
  | applying _ _ hleg => simp [hleg.state_eq]

/-- An attempt in progress, at its end or halted has kept to its course. -/
theorem Walking.course (h : Walking f₀ tip attempt commits p) (ht : f₀.tip? = some tip)
    (hlast : p.1.watch.last = p.1.status) :
    ∃ undone applied f, commits = applied ++ undone ∧ Course f₀ tip undone applied f ∧
      ((p.1 = f ∧ ∃ call, p.2 = .asks call ∧
          ∀ state, (f.request call).phase? = some state → f.watch.last.state = state) ∨
        (∃ result, p = f.concluded attempt result ∧
          ∃ last, last.Sublist [⟨leftIn result, f.tip?⟩] ∧
            p.1.watch.history = last ++ f.watch.history) ∨
        (p.1 = f ∧ ∃ halt, p.2 = .halted halt)) := by
  cases h with
  | @asks f call stage hunder hcall =>
    obtain ⟨undone, applied, heq, hcourse⟩ := hunder.course ht
    refine ⟨undone, applied, f, heq, hcourse, .inl ⟨rfl, call, rfl, ?_⟩⟩
    intro state hphase
    exact hunder.phase hlast (phase?_of_stage hcall hphase)
  | @ended f stage result hunder =>
    obtain ⟨undone, applied, heq, hcourse⟩ := hunder.course ht
    exact ⟨undone, applied, f, heq, hcourse,
      .inr (.inl ⟨result, rfl, history_concluded f attempt result⟩)⟩
  | @halted f stage halt hunder =>
    obtain ⟨undone, applied, heq, hcourse⟩ := hunder.course ht
    exact ⟨undone, applied, f, heq, hcourse, .inr (.inr ⟨rfl, halt, rfl⟩)⟩

theorem Walking.returned (h : Walking f₀ tip attempt commits p) (h₀ : f₀.state ≠ .uninitialized)
    {outcome : Outcome} (hp : p.2 = .returned outcome) :
    ∃ f result, p = concluded f attempt result ∧ p.1.state = leftIn result := by
  cases h with
  | asks hunder hcall => cases hp
  | @ended f stage result hunder =>
    refine ⟨f, result, rfl, ?_⟩
    rcases concluded_spec (hunder.opened h₀) result with ⟨d, heq⟩ | ⟨_, hstate⟩
    · rw [heq] at hp
      cases hp
    · exact hstate
  | halted halt hunder => cases hp

theorem Walking.asking (h : Walking f₀ tip attempt commits p) (h₀ : f₀.state ≠ .uninitialized)
    (hp : p = (f, .asks call)) :
    ∃ stage, Underway f₀ tip commits f stage ∧ call.stage? = some (attempt, stage) := by
  cases h with
  | asks hunder hcall =>
    cases hp
    exact ⟨_, hunder, hcall⟩
  | ended result hunder =>
    rcases concluded_spec (hunder.opened h₀) result with ⟨d, heq⟩ | ⟨heq, _⟩
    · rw [heq] at hp
      cases hp
    · rw [hp] at heq
      cases heq
  | halted halt hunder => cases hp

/-- Only the next attempt is rested for. -/
theorem Walking.resting (h : Walking f₀ tip attempt commits p) (h₀ : f₀.state ≠ .uninitialized)
    {d : Duration} (hp : p = (f, .rests d call)) : call = .target (attempt + 1) := by
  cases h with
  | asks hunder hcall => cases hp
  | ended result hunder =>
    rcases concluded_spec (hunder.opened h₀) result with ⟨d, heq⟩ | ⟨heq, _⟩
    · rw [heq] at hp
      cases hp
      rfl
    · rw [hp] at heq
      cases heq
  | halted halt hunder => cases hp

end Follower

namespace Snapshot

variable {T : Terms} {held₀ : Holdings} {earlier commits : List Commit} {m m' : Snapshot}
  {attempt : Nat} {tip : Tip}

/-- What becomes of a moment with replies, and what is committed with them. -/
inductive Replies (T : Terms) (m : Snapshot) : List Commit → Snapshot → Prop
  | refl : Replies T m [] m
  | reply {commits : List Commit} {f : Follower} (call : Call) {held held' : Holdings}
      (reply : (f.request call).Reply) : Replies T m commits ⟨f, .asks call, held⟩ →
      held.Answers (f.request call) reply held' → T.replies (f.request call) reply →
      Replies T m (((f.request call).committed reply).toList ++ commits)
        ⟨(f.proceed call reply).1, (f.proceed call reply).2, held'⟩

/-- What becomes of a moment with replies and rests between them. -/
inductive Attempts (T : Terms) (m : Snapshot) : Snapshot → Prop
  | first {commits : List Commit} {m' : Snapshot} : Replies T m commits m' → Attempts T m m'
  | again {f : Follower} {d : Duration} {call : Call} {held : Holdings} {commits : List Commit}
      {m' : Snapshot} : Attempts T m ⟨f, .rests d call, held⟩ →
      Replies T ⟨f, .asks call, held⟩ commits m' → Attempts T m m'

theorem Replies.history (hr : Replies T m commits m') (h : History T held₀ earlier m) :
    History T held₀ (commits ++ earlier) m' := by
  induction hr with
  | refl => exact h
  | reply call reply _ stored told ih =>
    rw [List.append_assoc]
    exact ih.reply call reply stored told

theorem History.opened (h : History T .empty earlier m)
    (ht : m.follower.tip? = some tip) : m.follower.state ≠ .uninitialized := by
  obtain ⟨v, hv, _⟩ := Follower.exists_view_of_tip? ht
  intro hstate
  have hnone := h.fit.candid.mp hstate
  exact absurd (hnone.symm.trans hv) (by simp)

/-- With every reply, an attempt stays on its course. -/
theorem Replies.walking (hT : T.Aligned) (h : History T .empty earlier m)
    (hnext : m.next = .asks (.target attempt)) (ht : m.follower.tip? = some tip)
    (hr : Replies T m commits m') :
    Follower.Walking m.follower tip attempt commits (m'.follower, m'.next) := by
  induction hr with
  | refl =>
    rw [hnext]
    exact .asks .asking rfl
  | reply call reply hr stored told ih =>
    have hm := hr.history h
    obtain ⟨stage, hunder, hcall⟩ := ih.asking (h.opened ht) rfl
    exact hunder.strides ht hm.agrees.published (hm.strides hT hcall reply)

/-- The last attempt begins in some moment too. -/
theorem Attempts.last (hT : T.Aligned) (h : History T .empty earlier m)
    (hnext : m.next = .asks (.target attempt)) (ht : m.follower.tip? = some tip)
    (ha : Attempts T m m') :
    ∃ n top commits before m₁, History T .empty before m₁ ∧ m₁.next = .asks (.target n) ∧
      m₁.follower.tip? = some top ∧ Replies T m₁ commits m' := by
  induction ha with
  | first hr => exact ⟨_, _, _, _, _, h, hnext, ht, hr⟩
  | @again f d call held commits m' _ hr ih =>
    obtain ⟨n, top, _, _, m₁, h₁, hnext₁, ht₁, hr₁⟩ := ih
    obtain rfl := (hr₁.walking hT h₁ hnext₁ ht₁).resting (h₁.opened ht₁) rfl
    have hwoken := (hr₁.history h₁).turn .wake
    obtain ⟨v, hv⟩ := Option.isSome_iff_exists.mp (hwoken.fit.admits _ rfl)
    exact ⟨n + 1, v.current.tip, _, _, _, hwoken, rfl, Follower.tip?_of_view hv, hr⟩

open Follower in
/-- An attempt at a walk is seen going down by one block at a time as reorganizing, then going up by one
block at a time as catching up, and blocks are touched only meanwhile. It is seen as synced at the end, if
that is a good one. After the last attempt the follower is synced or, if that has failed, catching up. So
no call that returns leaves it reorganizing, and it is uninitialized just as long as it has no tip. -/
theorem walk_course (hT : T.Consistent) (h : History T .empty earlier m) :
    (∀ attempt tip commits m', m.next = .asks (.target attempt) → m.follower.tip? = some tip →
      Replies T m commits m' → ∃ undone applied f, commits = applied ++ undone ∧
        Course m.follower tip undone applied f ∧
        ((m'.follower = f ∧ ∃ call, m'.next = .asks call ∧
            ∀ state, (f.request call).phase? = some state → f.watch.last.state = state) ∨
          (∃ result, (m'.follower, m'.next) = f.concluded attempt result ∧
            ∃ last, last.Sublist [⟨leftIn result, f.tip?⟩] ∧
              m'.follower.watch.history = last ++ f.watch.history) ∨
          (m'.follower = f ∧ ∃ halt, m'.next = .halted halt))) ∧
    (∀ attempt tip m' outcome, m.next = .asks (.target attempt) → m.follower.tip? = some tip →
      Attempts T m m' → m'.next = .returned outcome →
      ∃ before m₁ n commits, ∃ f : Follower, ∃ result, History T .empty before m₁ ∧
        m₁.next = .asks (.target n) ∧ Replies T m₁ commits m' ∧
        (m'.follower, m'.next) = f.concluded n result ∧ m'.follower.state = leftIn result ∧
        m'.follower.watch.last = m'.follower.status) ∧
    ∀ outcome, m.next = .returned outcome → m.follower.state ≠ .reorganizing ∧
      (m.follower.state = .uninitialized ↔ m.follower.view = none) := by
  refine ⟨?_, ?_, fun outcome hnext => ⟨h.fit.settled outcome hnext, h.fit.candid⟩⟩
  · intro attempt tip commits m' hnext ht hr
    exact (hr.walking hT.aligned h hnext ht).course ht (hr.history h).agrees.published
  · intro attempt tip m' outcome hnext ht ha hreturned
    obtain ⟨n, top, commits, before, m₁, h₁, hnext₁, ht₁, hr⟩ := ha.last hT.aligned h hnext ht
    obtain ⟨f, result, hend, hstate⟩ :=
      (hr.walking hT.aligned h₁ hnext₁ ht₁).returned (h₁.opened ht₁) hreturned
    exact ⟨before, m₁, n, commits, f, result, h₁, hnext₁, hr, hend, hstate,
      (hr.history h₁).agrees.published⟩

end Snapshot

namespace Fork

open Snapshot (Replies)

/-- The chain has gone back to `left`. -/
theorem replies_back {f : Follower} {held : Holdings} (hstate : f.state = .synced)
    (hview : f.view = some ⟨.regtest, start.tip, ⟨leftEnd.tip, [0, 0]⟩⟩)
    (hrec : held.record leftEnd.tip = some ⟨left.header.hash, []⟩) :
    ∃ m, Replies (.lawful rules ledger 0) ⟨f, .asks (.target 1), held⟩
        [.withoutUndo left.tip [0]] m ∧
      m.next = .returned (.ok ()) ∧ m.follower.status = ⟨.synced, some left.tip⟩ := by
  obtain ⟨game, retry, pruning, state, view, watch⟩ := f
  obtain rfl : state = .synced := hstate
  obtain rfl : view = some ⟨.regtest, start.tip, ⟨leftEnd.tip, [0, 0]⟩⟩ := hview
  let view : View := ⟨.regtest, start.tip, ⟨leftEnd.tip, [0, 0]⟩⟩
  let cause : Cause := .walk 1 left.tip
  let record : UndoRecord := ⟨left.header.hash, []⟩
  have hasked : Replies (.lawful rules ledger 0)
      ⟨⟨game, retry, pruning, .synced, some view, watch⟩, .asks (.target 1), held⟩ []
      ⟨⟨game, retry, pruning, .synced, some view, watch⟩, .asks (.target 1), held⟩ := .refl
  have htarget := hasked.reply (.target 1)
    (.ok ⟨.regtest, left.tip⟩ : Except ChainError ChainInfo) rfl ⟨by rintro _ ⟨⟩; rfl, trivial⟩
  have hcompare := htarget.reply (.compare 1 left.tip leftEnd.tip)
    (.ok none : Except ChainError (Option Hash)) rfl ⟨trivial, trivial⟩
  have hstale := hcompare.reply (.fetchStale 1 left.tip leftEnd.tip)
    (.ok leftEnd.payload : Except ChainError Json) rfl
    ⟨fun _ => by rintro _ ⟨⟩; exact Ledger.Holds.admits (b := leftEnd) rfl, trivial⟩
  have hlookup := hstale.reply (.lookup cause view leftEnd.payload)
    (.ok (some record) : Except StoreError (Option UndoRecord))
    ⟨rfl, by rintro _ ⟨⟩; exact hrec.symm⟩ ⟨trivial, _, rfl⟩
  have hrevert := hlookup.reply (.revert cause view leftEnd.payload record)
    (.ok [0] : Except GameFailure Bytes) rfl ⟨by rintro _ _ ⟨⟩; rfl, trivial⟩
  have hback : (⟨lower leftEnd.tip.height, record.parent⟩ : Tip) = left.tip := by decide
  have hreverted : Replies (.lawful rules ledger 0) _ []
      ⟨_, .asks (.retreat cause ⟨⟨lower leftEnd.tip.height, record.parent⟩, [0]⟩), held⟩ := hrevert
  rw [hback] at hreverted
  have hretreat := hreverted.reply (.retreat cause ⟨left.tip, [0]⟩)
    (.ok () : Except StoreError Unit) rfl ⟨trivial, rfl⟩
  have hcanonical := hretreat.reply (.compare 1 left.tip left.tip)
    (.ok (some left.header.hash) : Except ChainError (Option Hash)) rfl ⟨trivial, trivial⟩
  exact ⟨_, hcanonical, rfl, rfl⟩

end Fork

namespace Snapshot

/-- The follower goes back from `leftEnd` to `left`, and is synced there. -/
theorem walk_course_fork : ∃ f m', f.state = .synced ∧
    Replies (.lawful Fork.rules Fork.ledger 0) ⟨f, .asks (.target 1), Fork.prunedStore.holdings⟩
      [.withoutUndo Fork.left.tip [0]] m' ∧
    m'.follower.status = ⟨.synced, some Fork.left.tip⟩ ∧ m'.follower.state ≠ .reorganizing ∧
    ∃ undone applied g, [.withoutUndo Fork.left.tip [0]] = applied ++ undone ∧
      f.Course Fork.leftEnd.tip undone applied g := by
  obtain ⟨f, h, hstate, hview⟩ := Fork.history_leftEnd
  have hrec : Fork.prunedStore.holdings.record Fork.leftEnd.tip =
      some ⟨Fork.left.header.hash, []⟩ := by decide
  obtain ⟨m', hr, hnext, hstatus⟩ := Fork.replies_back hstate hview hrec
  have hstarted : f.started = (f, .asks (.target 1)) := by
    unfold Follower.started
    rw [hview]
    rfl
  have hm := h.turn .started
  rw [hstarted] at hm
  have hT : (Terms.lawful Fork.rules Fork.ledger 0).Consistent := Terms.keeps_lawful.consistent
  obtain ⟨hattempt, _, _⟩ := walk_course hT hm
  obtain ⟨_, _, hsettled⟩ := walk_course hT (hr.history hm)
  obtain ⟨undone, applied, g, heq, hcourse, _⟩ :=
    hattempt 1 _ _ m' rfl (Follower.tip?_of_view hview) hr
  exact ⟨f, m', hstate, hr, hstatus, (hsettled _ hnext).1, undone, applied, g, heq, hcourse⟩

end Snapshot

end ChainFollower
