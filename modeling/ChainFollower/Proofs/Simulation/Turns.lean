import ChainFollower.Proofs.Simulation.Scene
import Mathlib.Logic.Relation

namespace ChainFollower

namespace Worker

variable {L : Type} [Listener L] {σ : Type} {env : Surroundings L σ} {now : Nat} {w w' : Worker L} {s s' : σ}

/-- A rest of the worker is not over before this time. -/
def Timely (w : Worker L) (now : Nat) : Prop := ∀ due, w.due? = some due → now ≤ due

theorem timely_of_free (h : w.activity = .free) (now : Nat) : w.Timely now := by
  intro due hdue
  rw [due?, h] at hdue
  cases hdue

theorem timely_of_finished (h : w.finished = true) (now : Nat) : w.Timely now := by
  intro due hdue
  unfold due? at hdue
  split at hdue
  · next hactivity => simp [finished, hactivity] at h
  · cases hdue

theorem timely_progressed (w : Worker L) (now : Nat) (seat : Seat)
    (step : L × Progress (Listener.Call L) (Listener.Result L) (Listener.Halt L)) :
    (w.progressed now seat step).Timely now := by
  intro due hdue
  unfold progressed at hdue
  split at hdue
  · cases hdue
  · cases hdue
    exact Nat.le_add_right now _
  · cases hdue
  · cases hdue

theorem timely_runErrand (h : w.activity = .free) (now : Nat) (errand : Errand) :
    (w.runErrand now errand).Timely now := by
  unfold runErrand
  cases errand with
  | started seat =>
    simp only
    split
    · exact timely_of_free h now
    · exact timely_progressed w now seat _
  | notified seat n =>
    simp only
    split
    · exact timely_of_free h now
    · exact timely_progressed w now seat _

/-- A rest that begins is not over yet. -/
theorem timely_of_step? (h : step? env now w s = some (w', s')) : w'.Timely now := by
  unfold step? at h
  split at h
  · cases h
  · cases h
  · split at h
    · cases h
      exact fun due hdue => nomatch hdue
    · cases h
  · next seat call hactivity =>
    split at h
    · cases h
      exact timely_of_free rfl now
    · cases h
      exact timely_progressed w now seat _
  · next hfree =>
    split at h
    · next errand errands _ =>
      cases h
      exact timely_runErrand (w := { w with errands }) hfree now errand
    · split at h
      · cases h
        exact timely_of_finished rfl now
      · split at h
        · next m s₁ hreceive =>
          cases h
          rcases w.activity_handle m with hsame | hfinished
          · exact timely_of_free (hsame.trans hfree) now
          · exact timely_of_finished hfinished now
        · cases h
          exact timely_of_free hfree now
        · cases h
        · cases h
          exact timely_of_finished rfl now

theorem Timely.steps (h : w.Timely now) {fuel left : Nat} {short : Bool}
    (hsteps : w.steps env now fuel left s = (short, w', s')) : w'.Timely now := by
  induction fuel generalizing w left s with
  | zero =>
    cases hsteps
    exact h
  | succ fuel ih =>
    unfold Worker.steps at hsteps
    split at hsteps
    · cases hsteps
      exact h
    · split at hsteps
      · cases hsteps
        exact h
      · next hstep => exact ih (timely_of_step? hstep) hsteps

/-- A rest that is over is ended by a turn. -/
theorem timely_turn {short : Bool} (h : w.turn env now s = (short, w', s')) : w'.Timely now := by
  obtain ⟨fuel, hfuel⟩ : ∃ fuel, patience = fuel + 1 := ⟨patience - 1, by decide⟩
  have hleft : (w.isCounted && turnLength == 0) = false := Bool.and_false _
  rw [turn, hfuel] at h
  simp only [Worker.steps, hleft, Bool.false_eq_true, if_false] at h
  split at h
  · next hnone =>
    cases h
    intro due hdue
    unfold due? at hdue
    split at hdue
    · next seat due' call hactivity =>
      cases hdue
      rw [step?, hactivity] at hnone
      simp only at hnone
      split at hnone
      · cases hnone
      · next hlate => exact Nat.le_of_not_le hlate
    · cases hdue
  · next hstep => exact (timely_of_step? hstep).steps h

end Worker

/-- A socket is left only once. -/
theorem Subscriber.release_release {L : Type} [Listener L] (w : Worker L) (b : Bus) :
    release w (release w b) = release w b := by
  unfold release
  cases w.activity <;> simp only [Bus.drop, List.filter_filter, Bool.and_self]

theorem Subscriber.release_publish {L : Type} [Listener L] {w : Worker L} {b : Bus}
    (h : release w b = b) (endpoint : String) (m : Frames) :
    release w (b.publish endpoint m).2 = (b.publish endpoint m).2 := by
  unfold release at h ⊢
  split
  · next hactivity =>
    rw [hactivity] at h
    have hleft : ∀ s ∈ b.sockets, (s.id != w.socket) = true :=
      List.filter_eq_self.mp (congrArg Bus.sockets h)
    have hleft' : ∀ s ∈ (b.publish endpoint m).2.sockets, (s.id != w.socket) = true := by
      intro s hs
      obtain ⟨s', hs', rfl⟩ := List.mem_map.mp hs
      have hid := hleft s' hs'
      split <;> exact hid
    rw [Bus.drop, List.filter_eq_self.mpr hleft']
  · rfl

/-- A worker that can go on keeps its socket. -/
theorem Subscriber.release_of_step? {L : Type} [Listener L] {σ : Type} {env : Surroundings L σ} {now : Nat}
    {w : Worker L} {s : σ} {next : Worker L × σ} (h : w.step? env now s = some next) (b : Bus) :
    release w b = b := by
  unfold release
  split
  · next hactivity =>
    rw [Worker.step?, hactivity] at h
    cases h
  · rfl

namespace Simulation

variable {ν τ : Type} {S : Stores ν τ} {p q r : Scene ν τ} {w w' : World ν τ}
  {worker worker' : Worker (Hosted (World ν τ))} {id : SocketId} {e : Ensemble (World ν τ)} {m : Moment ν τ}

/-- The scene where the daemon has come to this. -/
def Scene.come (p : Scene ν τ) (worker : Worker (Hosted (World ν τ))) (w : World ν τ) : Scene ν τ :=
  ⟨{ p.state with world := site.setBus (Subscriber.release worker (site.bus w)) w },
    p.daemon.withWorker worker⟩

theorem Scene.step_come (p : Scene ν τ)
    (hstep : worker.step? (Daemon.surroundings site) w.now w = some (worker', w')) :
    Step (p.come worker w) (p.come worker' w') := by
  have hsame : (p.come worker w).state.world = w := by
    change site.setBus (Subscriber.release worker (site.bus w)) w = w
    rw [Subscriber.release_of_step? hstep]
    rfl
  have hdaemon : (p.come worker w).daemon.step? site w = some _ :=
    Daemon.step?_of_step? rfl hstep
  exact .work (by rw [hsame]; exact hdaemon)

/-- The worker serves both games, and has left its socket where it was halted. -/
structure Scene.Manned (S : Stores ν τ) (worker : Worker (Hosted (World ν τ))) (p : Scene ν τ) : Prop where
  working : p.daemon.worker? = some worker
  staffed : ∃ fs, worker.listeners = staff S fs
  left : Subscriber.release worker p.state.world.bus = p.state.world.bus

theorem Scene.Manned.come_self (h : p.Manned S worker) : p.come worker p.state.world = p := by
  have hworld : site.setBus (Subscriber.release worker (site.bus p.state.world)) p.state.world = p.state.world :=
    congrArg (fun bus => { p.state.world with bus }) h.left
  rw [Scene.come, hworld, Daemon.withWorker_self h.working]

/-- Steps of the worker one after the other. -/
theorem Scene.steps_come (p : Scene ν τ) (hstaff : ∃ fs, worker.listeners = staff S fs) {now : Nat}
    (hnow : w.now = now) {fuel left : Nat} {short : Bool}
    (hsteps : worker.steps (Daemon.surroundings site) now fuel left w = (short, worker', w')) :
    Relation.ReflTransGen Step (p.come worker w) (p.come worker' w') ∧
      (∃ fs, worker'.listeners = staff S fs) ∧ w'.now = now := by
  induction fuel generalizing worker left w with
  | zero =>
    cases hsteps
    exact ⟨.refl, hstaff, hnow⟩
  | succ fuel ih =>
    unfold Worker.steps at hsteps
    split at hsteps
    · cases hsteps
      exact ⟨.refl, hstaff, hnow⟩
    · split at hsteps
      · cases hsteps
        exact ⟨.refl, hstaff, hnow⟩
      · next worker₁ w₁ hstep =>
        rw [← hnow] at hstep
        obtain ⟨fs, hfs⟩ := hstaff
        obtain ⟨⟨_, hnow₁⟩, _, hstaff₁⟩ := (work_of_step? hfs hstep).keeps hfs
        obtain ⟨hrest, hkept⟩ := ih hstaff₁ (hnow₁.trans hnow) hsteps
        exact ⟨.head (p.step_come hstep) hrest, hkept⟩

/-- What a turn of the daemon comes to. -/
theorem Scene.Manned.turn (h : p.Manned S worker) {short : Bool} {daemon : Daemon (World ν τ)}
    (hturn : p.daemon.turn site p.state.world = (short, daemon, w)) :
    ∃ worker', Relation.ReflTransGen Step p ⟨{ p.state with world := w }, daemon⟩ ∧
      Scene.Manned S worker' ⟨{ p.state with world := w }, daemon⟩ ∧ w.now = p.state.world.now ∧
      worker'.Timely w.now := by
  rw [Daemon.turn, h.working] at hturn
  obtain ⟨short', worker', w', hsteps⟩ :
      ∃ short' worker' w', worker.turn (Daemon.surroundings site) p.state.world.now p.state.world =
        (short', worker', w') := ⟨_, _, _, rfl⟩
  have hnow : site.now p.state.world = p.state.world.now := rfl
  simp only [hnow, hsteps] at hturn
  cases hturn
  obtain ⟨hreached, hstaff, hnow'⟩ := p.steps_come h.staffed rfl hsteps
  rw [h.come_self] at hreached
  exact ⟨worker', hreached, ⟨rfl, hstaff, Subscriber.release_release worker' w'.bus⟩, hnow',
    hnow'.symm ▸ Worker.timely_turn hsteps⟩

/-- The daemon has come to another scene, and the simulation has done nothing. -/
structure Scene.Lapse (p q : Scene ν τ) : Prop where
  reached : Relation.ReflTransGen Step p q
  state : q.state = { p.state with world := q.state.world }

theorem Scene.Lapse.refl (p : Scene ν τ) : p.Lapse p := ⟨.refl, rfl⟩

theorem Scene.Lapse.trans (h : p.Lapse q) (h' : q.Lapse r) : p.Lapse r where
  reached := h.reached.trans h'.reached
  state := by
    rw [h'.state, h.state]

/-- The daemon is the only one there is. -/
structure Plays (S : Stores ν τ) (id : SocketId) (p : Scene ν τ) (e : Ensemble (World ν τ)) : Prop where
  world : e.world = p.state.world
  daemons : e.daemons = [(id, p.daemon)]
  leading : e.leading = some id
  manned : ∃ worker, p.Manned S worker
  timely : id ∈ e.resting → ∀ worker, p.daemon.worker? = some worker → worker.Timely p.state.world.now

/-- Who is ready, and who will be, is of no matter. -/
theorem Plays.same (h : Plays S id p e) {e' : Ensemble (World ν τ)} (hworld : e'.world = e.world)
    (hdaemons : e'.daemons = e.daemons) (hleading : e'.leading = e.leading)
    (hresting : e'.resting = e.resting) : Plays S id p e' where
  world := hworld.trans h.world
  daemons := hdaemons.trans h.daemons
  leading := hleading.trans h.leading
  manned := h.manned
  timely hmem := h.timely (hresting ▸ hmem)

theorem Plays.leader? (h : Plays S id p e) : e.leader? = some p.daemon := by
  rw [Ensemble.leader?, h.leading, h.daemons]
  exact List.lookup_cons_self

theorem Plays.due? (h : Plays S id p e) {other : SocketId} {due : Nat} (hdue : e.due? other = some due) :
    other = id ∧ ∃ worker, p.daemon.worker? = some worker ∧ worker.due? = some due := by
  obtain ⟨worker, hworker, hdue⟩ := Option.bind_eq_some_iff.mp hdue
  rw [Ensemble.worker?, h.daemons, List.lookup_cons] at hworker
  obtain ⟨d, hd, hworker⟩ := Option.bind_eq_some_iff.mp hworker
  split at hd
  · next hid =>
    cases hd
    exact ⟨by simpa using hid, worker, hworker, hdue⟩
  · cases hd

theorem Plays.turn (h : Plays S id p e) (other : SocketId) :
    ∃ q, p.Lapse q ∧ q.state.world.now = p.state.world.now ∧ Plays S id q (e.turn site other) := by
  unfold Ensemble.turn
  rw [h.daemons, List.lookup_cons]
  by_cases hid : other = id
  · subst hid
    obtain ⟨worker, hmanned⟩ := h.manned
    obtain ⟨short, daemon, w, hturn⟩ :
        ∃ short daemon w, p.daemon.turn site p.state.world = (short, daemon, w) := ⟨_, _, _, rfl⟩
    obtain ⟨worker', hreached, hmanned', hnow, htimely⟩ := hmanned.turn hturn
    refine ⟨⟨{ p.state with world := w }, daemon⟩, ⟨hreached, rfl⟩, hnow, ?_⟩
    have hplays (resting : List SocketId) : Plays S other ⟨{ p.state with world := w }, daemon⟩
        { e with world := w, daemons := [(other, daemon)], resting } := by
      refine ⟨rfl, rfl, h.leading, ⟨worker', hmanned'⟩, fun _ worker hworker => ?_⟩
      obtain rfl := Option.some.inj (hmanned'.working.symm.trans hworker)
      exact htimely
    simp only [beq_self_eq_true, h.world, hturn, Ensemble.setDaemon, h.leading, bne_self_eq_false,
      Bool.and_false, List.map_cons, List.map_nil, if_true, Bool.false_eq_true, if_false]
    split
    · exact (hplays e.resting).same rfl rfl h.leading.symm rfl
    · split
      · exact (hplays (e.resting ++ [other])).same rfl rfl h.leading.symm rfl
      · exact (hplays e.resting).same rfl rfl h.leading.symm rfl
  · have hother : (other == id) = false := by simpa using hid
    rw [hother]
    exact ⟨p, .refl p, rfl, h⟩

theorem Plays.turns (h : Plays S id p e) (ids : List SocketId) :
    ∃ q, p.Lapse q ∧ q.state.world.now = p.state.world.now ∧
      Plays S id q (ids.foldl (Ensemble.turn site) e) := by
  induction ids generalizing p e with
  | nil => exact ⟨p, .refl p, rfl, h⟩
  | cons first rest ih =>
    obtain ⟨p₁, hlapse, hnow, h₁⟩ := h.turn first
    obtain ⟨q, hlapse', hnow', hq⟩ := ih h₁
    exact ⟨q, hlapse.trans hlapse', hnow'.trans hnow, hq⟩

theorem Plays.round (h : Plays S id p e) :
    ∃ q, p.Lapse q ∧ q.state.world.now = p.state.world.now ∧ Plays S id q (e.round site) := by
  have hready : Plays S id p { e with ready := e.ready.drop Ensemble.roundLength } := h.same rfl rfl rfl rfl
  obtain ⟨q, hlapse, hnow, hq⟩ := hready.turns (e.ready.take Ensemble.roundLength)
  exact ⟨q, hlapse, hnow, hq.same rfl rfl rfl rfl⟩

theorem Plays.advanceTo (h : Plays S id p e) {now : Nat} (hle : p.state.world.now ≤ now) :
    ∃ q, p.Lapse q ∧ q.state.world.now = now ∧ Plays S id q (e.advanceTo site now) := by
  let later : Scene ν τ := { p with state := { p.state with world := { p.state.world with now } } }
  have hworld : (e.advanceTo site now).world = later.state.world := by
    change { e.world with now } = { p.state.world with now }
    rw [h.world]
  refine ⟨later, ⟨.single (.wait now hle), rfl⟩, rfl, hworld, h.daemons, h.leading, ?_, ?_⟩
  · obtain ⟨worker, hmanned⟩ := h.manned
    exact ⟨worker, hmanned.working, hmanned.staffed, hmanned.left⟩
  · intro hmem worker hworker due hdue
    have hrests := (List.mem_filter.mp hmem).2
    have hdue' : e.due? id = some due := by
      rw [Ensemble.due?, Ensemble.worker?, h.daemons, List.lookup_cons_self, Option.bind_some]
      change p.daemon.worker? = some worker at hworker
      rw [hworker, Option.bind_some, hdue]
    simp only [hdue', Option.all_some, Bool.not_eq_true', decide_eq_false_iff_not] at hrests
    exact Nat.le_of_not_le hrests

theorem Plays.run (h : Plays S id p e) {deadline : Option Nat}
    (hdeadline : ∀ time, deadline = some time → p.state.world.now ≤ time)
    (done : Ensemble (World ν τ) → Bool) (fuel : Nat) :
    ∃ q, p.Lapse q ∧ Plays S id q (e.run site deadline done fuel) := by
  induction fuel generalizing p e with
  | zero => exact ⟨p, .refl p, h⟩
  | succ fuel ih =>
    unfold Ensemble.run
    split
    · exact ⟨p, .refl p, h⟩
    · split
      · obtain ⟨p₁, hlapse, hnow, h₁⟩ := h.round
        obtain ⟨q, hlapse', hq⟩ := ih h₁ (hnow ▸ hdeadline)
        exact ⟨q, hlapse.trans hlapse', hq⟩
      · split
        · next due hnext =>
          obtain ⟨hmin, hearly⟩ := Option.filter_eq_some_iff.mp hnext
          obtain ⟨other, hresting, hdue⟩ := List.mem_filterMap.mp (List.min?_mem hmin)
          obtain ⟨rfl, worker, hworker, hdue⟩ := h.due? hdue
          obtain ⟨p₁, hlapse, hnow, h₁⟩ := h.advanceTo (h.timely hresting worker hworker due hdue)
          have hdeadline₁ : ∀ time, deadline = some time → p₁.state.world.now ≤ time := by
            rintro time rfl
            rw [hnow]
            exact Nat.le_of_lt (by simpa using hearly)
          obtain ⟨q, hlapse', hq⟩ := ih h₁ hdeadline₁
          exact ⟨q, hlapse.trans hlapse', hq⟩
        · cases deadline with
          | none => exact ⟨p, .refl p, h⟩
          | some time =>
            obtain ⟨q, hlapse, _, hq⟩ := h.advanceTo (hdeadline time rfl)
            exact ⟨q, hlapse, hq⟩

theorem Plays.rest (h : Plays S id p e) (d : Duration) :
    ∃ q, p.Lapse q ∧ Plays S id q (e.rest site d) := by
  unfold Ensemble.rest
  split
  · have hdeadline : ∀ time, some (site.now e.world + d.lasting) = some time → p.state.world.now ≤ time := by
      intro time htime
      rw [← Option.some.inj htime, h.world]
      exact Nat.le_add_right _ _
    obtain ⟨q, hlapse, hq⟩ := h.run hdeadline (fun _ => false) Worker.patience
    exact ⟨q, hlapse, hq.same rfl rfl rfl rfl⟩
  · split
    · exact ⟨p, .refl p, h.same rfl rfl rfl rfl⟩
    · obtain ⟨q, hlapse, _, hq⟩ := h.round
      exact ⟨q, hlapse, hq.same rfl rfl rfl rfl⟩

theorem Plays.waitFor (h : Plays S id p e) (game : String) (wanted : Status → Bool) (patience : Duration) :
    ∃ q, p.Lapse q ∧ Plays S id q (e.waitFor site game wanted patience).2 ∧
      ((e.waitFor site game wanted patience).1 = .gone →
        p.daemon.status? game = none ∨ q.daemon.isRunning = false) := by
  have hstatus : e.status? game = p.daemon.status? game := by
    rw [Ensemble.status?, h.leader?]
    rfl
  cases hfirst : e.status? game with
  | none =>
    simp only [Ensemble.waitFor, hfirst]
    exact ⟨p, .refl p, h, fun _ => .inl (hstatus.symm.trans hfirst)⟩
  | some first =>
    have hdeadline : ∀ time, some (site.now e.world + patience.lasting) = some time →
        p.state.world.now ≤ time := by
      intro time htime
      rw [← Option.some.inj htime, h.world]
      exact Nat.le_add_right _ _
    obtain ⟨q, hlapse, hq⟩ :=
      h.run hdeadline (fun e => (e.status? game).any wanted || !e.isRunning) Worker.patience
    refine ⟨q, hlapse, ?_⟩
    simp only [Ensemble.waitFor, hfirst]
    split
    · exact ⟨hq, fun hgone => nomatch hgone⟩
    · refine ⟨hq, fun hgone => .inr ?_⟩
      split at hgone
      · cases hgone
      · next hstopped =>
        rw [Ensemble.isRunning, hq.leader?, Option.any_some] at hstopped
        exact Bool.eq_false_iff.mpr hstopped

theorem act_keeps {s s' : State ν τ} {action : Action} (h : s.act action = .ok s') :
    s'.world.now = s.world.now ∧ (s'.world.bus = s.world.bus ∨
      ∃ endpoint m, s'.world.bus = (s.world.bus.publish endpoint m).2) := by
  cases action with
  | rounds round =>
    cases h
    exact ⟨rfl, .inl rfl⟩
  | mine round mayDrop =>
    cases h
    exact ⟨rfl, .inl rfl⟩
  | unmine =>
    simp only [State.act] at h
    split at h
    · cases h
    · cases h
      exact ⟨rfl, .inl rfl⟩
  | announce kind game block mayDrop =>
    simp only [State.act, State.announce] at h
    split at h
    · cases h
      exact ⟨rfl, .inl rfl⟩
    · split at h
      · cases h
      · cases h
        exact ⟨rfl, .inr ⟨_, _, rfl⟩⟩
  | rest =>
    cases h
    exact ⟨rfl, .inl rfl⟩

/-- The moment shows the scene. -/
structure Moment.Shows (S : Stores ν τ) (id : SocketId) (m : Moment ν τ) (p : Scene ν τ) : Prop where
  state : m.state = p.state
  plays : Plays S id p { m.ensemble with world := m.state.world }

theorem Moment.Shows.scene (h : m.Shows S id p) : p.At m := ⟨h.state, h.plays.leader?⟩

theorem Moment.Shows.act (h : m.Shows S id p) {s : State ν τ} {action : Action} {todo : List Action}
    (hact : { p.state with todo }.act action = .ok s) : Moment.Shows S id { m with state := s } { p with state := s } where
  state := rfl
  plays := by
    obtain ⟨hnow, hbus⟩ := act_keeps hact
    obtain ⟨worker, hmanned⟩ := h.plays.manned
    refine ⟨rfl, h.plays.daemons, h.plays.leading, ⟨worker, hmanned.working, hmanned.staffed, ?_⟩, ?_⟩
    · rcases hbus with hsame | ⟨endpoint, m, hpublish⟩
      · rw [hsame]
        exact hmanned.left
      · rw [hpublish]
        exact Subscriber.release_publish hmanned.left endpoint m
    · intro hmem worker hworker
      change worker.Timely s.world.now
      rw [hnow]
      exact h.plays.timely hmem worker hworker

/-- Whoever is woken gets ready and does nothing yet. -/
theorem wakeReceivers_eq (e : Ensemble (World ν τ)) : ∃ ready, e.wakeReceivers site = { e with ready } := by
  unfold Ensemble.wakeReceivers
  generalize (site.bus e.world).sockets = sockets
  induction sockets generalizing e with
  | nil => exact ⟨e.ready, rfl⟩
  | cons first rest ih =>
    obtain ⟨ready, hfirst⟩ :
        ∃ ready, (if first.queue.isEmpty then e else e.wake first.id) = { e with ready } := by
      split
      · exact ⟨e.ready, rfl⟩
      · unfold Ensemble.wake
        split
        · exact ⟨e.ready ++ [first.id], rfl⟩
        · exact ⟨e.ready, rfl⟩
    rw [List.foldl_cons, hfirst]
    exact ih { e with ready }

theorem Moment.Shows.handOver (h : m.Shows S id p) : Plays S id p m.handOver := by
  obtain ⟨ready, hready⟩ := wakeReceivers_eq { m.ensemble with world := m.state.world }
  rw [Moment.handOver, hready]
  exact h.plays.same rfl rfl rfl rfl

theorem Moment.Shows.takeOver (h : m.Shows S id p) (hlapse : p.Lapse q) (hplays : Plays S id q e) :
    (m.takeOver e).Shows S id q where
  state := by
    rw [hlapse.state, ← h.state, ← hplays.world]
    rfl
  plays := hplays.same rfl rfl rfl rfl

end Simulation

end ChainFollower
