import Mathlib.Logic.Relation
import ChainFollower.Proofs.Simulation.Opening

namespace ChainFollower

namespace Simulation

open SimulatedChain (top)

variable {ν τ : Type} {S : Stores ν τ} {T : Terms} {s : State ν τ} {w : World ν τ} {a : Account}
  {worker worker' : Worker (Hosted (World ν τ))} {p q : Scene ν τ} {suppressed : Bool}

theorem Attends.wait (h : Attends S T a s worker) (now : Nat) :
    Attends S T a { s with world := { s.world with now } } worker where
  staff := h.staff
  going := h.going
  size := h.size
  socket := h.socket
  queue := h.queue
  errands := h.errands
  busy := h.busy
  serves side := (h.serves side).same _ rfl rfl (by cases side <;> rfl)
  arrives := h.arrives

/-- A worker that can go on keeps its socket. -/
theorem Busy.release {blocks : Side → List Header} {n : Nat} (h : Busy T blocks worker n) (bus : Bus) :
    Subscriber.release worker bus = bus := by
  unfold Subscriber.release
  cases h with
  | free hactivity => rw [hactivity]
  | asking side call hactivity => rw [hactivity]
  | resting side due call hactivity => rw [hactivity]

theorem Busy.not_finished {blocks : Side → List Header} {n : Nat} (h : Busy T blocks worker n) :
    worker.finished = false := by
  unfold Worker.finished
  cases h with
  | free hactivity => rw [hactivity]
  | asking side call hactivity => rw [hactivity]
  | resting side due call hactivity => rw [hactivity]

/-- What holds of a scene after every step. -/
structure Scene.Kept (S : Stores ν τ) (T : Terms) (suppressed : Bool) (p : Scene ν τ) : Prop where
  planned : Planned T p.state
  worker : ∃ worker fs, p.daemon.worker? = some worker ∧ worker.suppressed = suppressed ∧
    worker.listeners = staff S fs ∧ (p.state.world.chain.Distinct → ∃ a, Attends S T a p.state worker)

/-- A step of the worker leaves it less to do. -/
theorem Attends.stepped (h : Attends S T a p.state worker) (hc : Charted T p.state.world.chain)
    (hworker : p.daemon.worker? = some worker) {daemon : Daemon (World ν τ)}
    (hstep : p.daemon.step? site p.state.world = some (daemon, w)) :
    ∃ a' worker', daemon.worker? = some worker' ∧ a'.load T worker'.errands < a.load T worker.errands ∧
      Attends S T a' { p.state with world := w } worker' := by
  obtain ⟨worker₀, worker', w', hworker₀, hwork, hworker', rfl⟩ := Daemon.step?_eq_some hstep
  obtain rfl := Option.some.inj (hworker.symm.trans hworker₀)
  obtain ⟨a', hless, ha'⟩ := h.work hc (work_of_step? h.staff hwork)
  have hrelease : Subscriber.release worker' (site.bus w') = w'.bus := ha'.busy.release w'.bus
  rw [hrelease]
  exact ⟨a', worker', hworker', hless, ha'⟩

theorem Scene.Kept.act (h : p.Kept S T suppressed) {action : Action} {todo : List Action}
    (htodo : p.state.todo = action :: todo) (hact : { p.state with todo }.act action = .ok s) :
    Scene.Kept S T suppressed { p with state := s } := by
  obtain ⟨worker, fs, hworker, hsuppressed, hstaff, hattends⟩ := h.worker
  obtain ⟨s', hs', hacts⟩ := h.planned.act htodo
  cases hact.symm.trans hs'
  refine ⟨hacts.planned, worker, fs, hworker, hsuppressed, hstaff, fun hdistinct => ?_⟩
  obtain ⟨a, ha⟩ := hattends (hacts.distinct hdistinct)
  exact ha.act h.planned hacts hdistinct

theorem Scene.Kept.work (h : p.Kept S T suppressed) {daemon : Daemon (World ν τ)}
    (hstep : p.daemon.step? site p.state.world = some (daemon, w)) :
    w.chain = p.state.world.chain ∧ Scene.Kept S T suppressed ⟨{ p.state with world := w }, daemon⟩ := by
  obtain ⟨worker, fs, hworker, hsuppressed, hstaff, hattends⟩ := h.worker
  obtain ⟨worker₀, worker', w', hworker₀, hwork, hworker', hw⟩ := Daemon.step?_eq_some hstep
  obtain rfl := Option.some.inj (hworker.symm.trans hworker₀)
  obtain ⟨⟨hchain', _⟩, hsuppressed', fs', hstaff'⟩ := (work_of_step? hstaff hwork).keeps hstaff
  have hchain : w.chain = p.state.world.chain := by
    rw [hw]
    exact hchain'
  obtain ⟨highest, hphase, hmost⟩ := h.planned.phase
  refine ⟨hchain, h.planned.still rfl hchain hphase hmost fun _ _ _ _ hmem => hmem, worker', fs', hworker',
    hsuppressed'.trans hsuppressed, hstaff', fun hdistinct => ?_⟩
  change w.chain.Distinct at hdistinct
  rw [hchain] at hdistinct
  obtain ⟨a, ha⟩ := hattends hdistinct
  obtain ⟨a', worker'', hworker'', _, ha'⟩ := ha.stepped (h.planned.charted hdistinct) hworker hstep
  obtain rfl := Option.some.inj (hworker'.symm.trans hworker'')
  exact ⟨a', ha'⟩

theorem Scene.Kept.reorder (h : p.Kept S T suppressed) (hworker : p.daemon.worker? = some worker)
    (hreordered : worker.Reordered worker') :
    Scene.Kept S T suppressed { p with daemon := p.daemon.withWorker worker' } := by
  obtain ⟨worker₀, fs, hworker₀, hsuppressed, hstaff, hattends⟩ := h.worker
  obtain rfl := Option.some.inj (hworker.symm.trans hworker₀)
  refine ⟨h.planned, worker', fs, rfl, ?_, ?_, fun hdistinct => ?_⟩
  · cases hreordered
    exact hsuppressed
  · cases hreordered
    exact hstaff
  · obtain ⟨a, ha⟩ := hattends hdistinct
    exact ⟨a, ha.reorder hreordered⟩

theorem Scene.Kept.wait (h : p.Kept S T suppressed) (now : Nat) :
    Scene.Kept S T suppressed { p with state := { p.state with world := { p.state.world with now } } } := by
  obtain ⟨worker, fs, hworker, hsuppressed, hstaff, hattends⟩ := h.worker
  obtain ⟨highest, hphase, hmost⟩ := h.planned.phase
  refine ⟨h.planned.still rfl rfl hphase hmost fun _ _ _ _ hmem => hmem, worker, fs, hworker, hsuppressed,
    hstaff, ?_⟩
  intro hdistinct
  obtain ⟨a, ha⟩ := hattends hdistinct
  exact ⟨a, ha.wait now⟩

theorem Scene.Kept.step (h : p.Kept S T suppressed) (hstep : Step p q) : q.Kept S T suppressed := by
  cases hstep with
  | act htodo hact => exact h.act htodo hact
  | work hwork => exact (h.work hwork).2
  | reorder hworker hreordered => exact h.reorder hworker hreordered
  | wait now hle => exact h.wait now

theorem Scene.Kept.reached (h : p.Kept S T suppressed) (hreached : Relation.ReflTransGen Step p q) :
    q.Kept S T suppressed := by
  induction hreached with
  | refl => exact h
  | tail _ hstep ih => exact ih.step hstep

/-- The simulation comes to its end whatever the worker does. -/
theorem Scene.Kept.exists_finished (h : p.Kept S T suppressed) :
    ∃ q, Relation.ReflTransGen Step p q ∧ q.state.todo = [] := by
  generalize hn : toil T p.state.todo = n
  induction n using Nat.strongRecOn generalizing p with
  | ind n ih =>
    cases htodo : p.state.todo with
    | nil => exact ⟨p, .refl, htodo⟩
    | cons action todo =>
      obtain ⟨s, hs, hacts⟩ := h.planned.act htodo
      have hstep : Step p { p with state := s } := .act htodo hs
      obtain ⟨q, hreached, hnil⟩ := ih _ (hn ▸ hacts.toil) (h.step hstep) rfl
      exact ⟨q, .head hstep hreached, hnil⟩

/-- Where the worker has something to do, it can go on at some time. -/
theorem Attends.exists_step (h : Attends S T a s worker)
    (hbusy : ¬(worker.activity = .free ∧ worker.errands = [] ∧ s.world.bus.pop? worker.socket = none)) :
    ∃ now, s.world.now ≤ now ∧
      worker.step? (Daemon.surroundings site) now { s.world with now } ≠ none := by
  have hactivity := h.busy
  generalize a.left = left at hactivity
  cases hactivity with
  | free hfree =>
    refine ⟨_, Nat.le_refl _, ?_⟩
    cases herrands : worker.errands with
    | cons errand errands => simp [Worker.step?, hfree, herrands]
    | nil =>
      cases hpop : s.world.bus.pop? worker.socket with
      | none => exact absurd ⟨hfree, herrands, hpop⟩ hbusy
      | some popped =>
        cases haccepts : s.world.bus.accepts worker.socket popped.1 <;>
          simp [Worker.step?, hfree, herrands, h.going, Daemon.surroundings, within, Receipt.take, site,
            hpop, haccepts]
  | asking side call hasking =>
    refine ⟨_, Nat.le_refl _, ?_⟩
    simp [Worker.step?, hasking, listener?_staff h.staff side]
  | resting side due call hresting =>
    refine ⟨max s.world.now due, Nat.le_max_left _ _, ?_⟩
    simp only [Worker.step?, hresting, if_pos (Nat.le_max_right s.world.now due)]
    exact Option.some_ne_none _

/-- The worker gets to where it has nothing to do, whatever it is busy with. -/
theorem Scene.Kept.exists_idle (h : p.Kept S T suppressed) (hdistinct : p.state.world.chain.Distinct) :
    ∃ q, Relation.ReflTransGen Step p q ∧ q.state = { p.state with world := q.state.world } ∧
      q.state.world.chain = p.state.world.chain ∧ q.Idle := by
  obtain ⟨worker, hworker, a, ha⟩ : ∃ worker, p.daemon.worker? = some worker ∧
      ∃ a, Attends S T a p.state worker := by
    obtain ⟨worker, _, hworker, _, _, hattends⟩ := h.worker
    exact ⟨worker, hworker, hattends hdistinct⟩
  generalize hn : a.load T worker.errands = n
  induction n using Nat.strongRecOn generalizing p a worker with
  | ind n ih =>
    by_cases hidle : worker.activity = .free ∧ worker.errands = [] ∧
        p.state.world.bus.pop? worker.socket = none
    · exact ⟨p, .refl, rfl, rfl, worker, hworker, hidle⟩
    obtain ⟨now, hle, hgoes⟩ := ha.exists_step hidle
    let later : Scene ν τ := { p with state := { p.state with world := { p.state.world with now } } }
    have hlater : later.Kept S T suppressed := h.wait now
    obtain ⟨daemon, world, hstep⟩ :
        ∃ daemon world, later.daemon.step? site later.state.world = some (daemon, world) := by
      obtain ⟨⟨worker', w'⟩, hgoes⟩ := Option.ne_none_iff_exists'.mp hgoes
      exact ⟨_, _, Daemon.step?_of_step? hworker hgoes⟩
    obtain ⟨hchain, hkept⟩ := hlater.work hstep
    obtain ⟨a', worker', hworker', hless, ha'⟩ :=
      (ha.wait now).stepped (p := later) (h.planned.charted hdistinct) hworker hstep
    have hsame : world.chain.Distinct := by
      rw [hchain]
      exact hdistinct
    obtain ⟨q, hreached, hstate, hchain', hidle'⟩ := ih _ (hn ▸ hless) hkept hsame worker' hworker' a' ha' rfl
    exact ⟨q, .head (.wait now hle) (.head (.work hstep) hreached), hstate, hchain'.trans hchain, hidle'⟩

theorem Scene.Kept.isRunning (h : p.Kept S T suppressed) (hdistinct : p.state.world.chain.Distinct) :
    p.daemon.isRunning = true := by
  obtain ⟨worker, _, hworker, _, _, hattends⟩ := h.worker
  obtain ⟨a, ha⟩ := hattends hdistinct
  change p.daemon.subscriber.worker = some worker at hworker
  rw [Daemon.isRunning, Subscriber.isRunning, hworker, Option.any_some, ha.busy.not_finished]
  rfl

theorem status?_staff {fs : Side → Follower} (hworker : p.daemon.worker? = some worker)
    (hstaff : worker.listeners = staff S fs) (side : Side) :
    p.daemon.status? side.id = some (fs side).watch.last := by
  rw [Daemon.status?, Daemon.listeners, hworker]
  simp only
  rw [hstaff, lookup_staff]
  rfl

/-- Where nothing is left to do, every game is in step at the last block. -/
theorem Scene.Kept.settled (h : p.Kept S T false) (hdistinct : p.state.world.chain.Distinct)
    (htodo : p.state.todo = []) (hidle : p.Idle) (side : Side) :
    p.daemon.status? side.id = some ⟨.synced, some p.state.world.chain.tip⟩ := by
  obtain ⟨worker, _, hworker, hsuppressed, _, hattends⟩ := h.worker
  obtain ⟨a, ha⟩ := hattends hdistinct
  obtain ⟨worker', hworker', hfree, herrands, hpop⟩ := hidle
  obtain rfl := Option.some.inj (hworker.symm.trans hworker')
  have hqueue : a.queue = [] := by
    cases hqueue : a.queue with
    | nil => rfl
    | cons m rest => cases hpop.symm.trans (Bus.pop?_of_queue ha.socket hqueue)
  have hlast : p.state.world.chain.branch.length = T.summit := by
    rw [← h.planned.blocks, ← h.planned.height_of_nil htodo]
    exact h.planned.grown.branch.height_top.symm
  obtain ⟨v, hf, _⟩ := ha.serves side
  rcases ha.arrives hsuppressed hlast side with hhome | ⟨_, hdue⟩
  · obtain ⟨hstate, hblocks⟩ := hhome.2 (not_engaged_of_free hfree side)
    rw [status?_staff hworker ha.staff, hf.published, Follower.status, Follower.tip?, hf.view, hstate]
    rw [Option.map_some, hf.tip, hblocks]
    rfl
  · rw [htodo, hqueue, herrands] at hdue
    cases hdue with
    | planned hmem => cases hmem
    | sent m seq hmem => cases hmem
    | taken n hmem => cases hmem

/-- A worker that is about to begin. -/
theorem attends_start (config : SimulationConfig) {daemonConfig : DaemonConfig} {id : SocketId}
    {fs : Side → Follower}
    (hsummit : 0 < T.summit) (hbranch : w.chain.branch = []) (hsize : w.buffer.size ≤ Buffered.maxSize)
    (hsocket : w.bus.socket? id = some ⟨id, daemonConfig.endpoint, subscriptions, []⟩)
    (hinitialized : ∀ side, Initialized S T side w (fs side)) :
    Attends S T ⟨fs, fun _ => [], [], 0⟩ (start config w (.start daemonConfig.endpoint))
      (.start id (staff S fs) .empty daemonConfig.suppressed) where
  staff := rfl
  going := rfl
  size := hsize
  socket := hsocket
  queue := List.forall_mem_nil _
  errands errand herrand := by
    unfold Worker.start at herrand
    simp only at herrand
    split at herrand
    · cases herrand
    · change errand ∈ [Errand.started Side.names.seat, .started Side.tally.seat] at herrand
      rcases List.mem_cons.mp herrand with rfl | herrand
      · exact ⟨.names, rfl⟩
      · exact List.mem_singleton.mp herrand ▸ ⟨.tally, rfl⟩
  busy := .free rfl
  serves side := by
    obtain ⟨_, v, hf⟩ := hinitialized side
    exact ⟨v, hf, fun call hcall => absurd hcall (not_engaged_of_free rfl side call)⟩
  arrives _ hlast := by
    change w.chain.branch.length = T.summit at hlast
    rw [hbranch] at hlast
    exact absurd hlast (Nat.ne_of_lt hsummit)

/-- Fewer than `2 ^ 60` rounds, and records that are kept long enough. -/
theorem exists_kept {config : SimulationConfig} {daemonConfig : DaemonConfig}
    (hblocks : config.blocks.toNat < 2 ^ 60)
    (hpruning : ∀ depth, daemonConfig.pruning = some depth → config.reorgDepth.toNat ≤ depth.toNat + 1)
    (hendpoint : daemonConfig.endpoint.isEmpty = false) (hfresh : Fresh S w) :
    ∃ (m : Moment ν τ) (p : Scene ν τ) (fs : _), m.Opens S config daemonConfig w ∧ m.Shows S w.bus.nextId p ∧
      p.state = start config p.state.world (.start daemonConfig.endpoint) ∧
      p.state.world.chain = w.chain ∧
      p.daemon.worker? = some (.start w.bus.nextId (staff S fs) .empty daemonConfig.suppressed) ∧
      (∀ side, (fs side).watch.last = ⟨.synced, some genesis⟩) ∧
      p.Kept S ⟨config.reorgDepth.toNat, config.blocks.toNat + 1, daemonConfig.retry⟩
        daemonConfig.suppressed := by
  let terms : Terms := ⟨config.reorgDepth.toNat, config.blocks.toNat + 1, daemonConfig.retry⟩
  have hsuits : Suits terms daemonConfig := ⟨rfl, hpruning, hendpoint⟩
  obtain ⟨m, p, fs, hopens, hshows, hstate, hworker, hchain, hsize, hsocket, hinitialized⟩ :=
    exists_opens hsuits hfresh config
  obtain ⟨network, hnetwork⟩ := hfresh.chain
  have hsummit : terms.summit ≤ 2 ^ 60 := hblocks
  have hplanned : Planned terms (start config p.state.world (.start daemonConfig.endpoint)) :=
    planned_start rfl rfl hsummit (hchain.trans hnetwork) _
  have hbranch : p.state.world.chain.branch = [] := by
    rw [hchain, hnetwork]
    rfl
  have hattends := attends_start (T := terms) config (Nat.succ_pos _) hbranch hsize hsocket hinitialized
  rw [← hstate] at hplanned hattends
  exact ⟨m, p, fs, hopens, hshows, hstate, hchain, hworker, fun side => (hinitialized side).last, hplanned, _, fs,
    hworker, rfl, rfl, fun _ => ⟨_, hattends⟩⟩

/-- The worker counts messages and does nothing else. -/
structure Muted (S : Stores ν τ) (fs : Side → Follower) (worker : Worker (Hosted (World ν τ))) : Prop where
  staff : worker.listeners = staff S fs
  suppressed : worker.suppressed = true
  errands : worker.errands = []
  quiet : worker.activity = .free ∨ worker.finished = true

theorem errands_handle (hsuppressed : worker.suppressed = true) (herrands : worker.errands = [])
    (m : Frames) : (worker.handle m).errands = [] := by
  cases hnotice : worker.notice? m with
  | none =>
    rw [Worker.handle_of_no_notice hnotice]
    exact herrands
  | some n => rw [Worker.handle_of_notice hnotice, hsuppressed, if_pos rfl]

theorem Muted.work {fs : Side → Follower} {now : Nat} {w' : World ν τ}
    (h : Muted S fs worker) (hwork : Work S fs now worker w worker' w') : Muted S fs worker' := by
  have hquiet := h.quiet
  cases hwork with
  | wakes seat due call hactivity => simp [Worker.finished, hactivity] at hquiet
  | asks side call reply w' hactivity hreply => simp [Worker.finished, hactivity] at hquiet
  | drops seat call hactivity hseat => simp [Worker.finished, hactivity] at hquiet
  | begins errand errands hactivity herrands => cases h.errands.symm.trans herrands
  | exits hstopping => exact ⟨h.staff, h.suppressed, h.errands, .inr rfl⟩
  | takes m bus hawaits hpop =>
    split
    · refine ⟨(worker.listeners_handle m).trans h.staff, (worker.suppressed_handle m).trans h.suppressed,
        errands_handle h.suppressed h.errands m, ?_⟩
      rcases worker.activity_handle m with heq | hfinished
      · rw [heq, Worker.activity_of_isFree hawaits.1]
        exact .inl rfl
      · exact .inr hfinished
    · exact h

theorem Muted.reorder {fs : Side → Follower} (h : Muted S fs worker) (hreordered : worker.Reordered worker') :
    Muted S fs worker' := by
  obtain ⟨errands, _, hperm⟩ := hreordered
  exact { h with errands := List.perm_nil.mp (h.errands ▸ hperm) }

/-- Its games never hear of a block. -/
theorem Muted.reached {fs : Side → Follower} (h : Muted S fs worker)
    (hworker : p.daemon.worker? = some worker)
    (hreached : Relation.ReflTransGen Scene.Step p q) :
    ∃ worker', q.daemon.worker? = some worker' ∧ Muted S fs worker' := by
  induction hreached with
  | refl => exact ⟨worker, hworker, h⟩
  | tail _ hstep ih =>
    obtain ⟨worker', hworker', h'⟩ := ih
    cases hstep with
    | act htodo hact => exact ⟨worker', hworker', h'⟩
    | work hwork =>
      obtain ⟨worker₀, next, w', hworker₀, hstep, hnext, _⟩ := Daemon.step?_eq_some hwork
      obtain rfl := Option.some.inj (hworker'.symm.trans hworker₀)
      exact ⟨next, hnext, h'.work (work_of_step? h'.staff hstep)⟩
    | reorder hworker₀ hreordered =>
      obtain rfl := Option.some.inj (hworker'.symm.trans hworker₀)
      exact ⟨_, rfl, h'.reorder hreordered⟩
    | wait now hle => exact ⟨worker', hworker', h'⟩

/-- Where notifications are not passed on, the games stay where they were. -/
theorem Muted.status? {fs : Side → Follower} (h : Muted S fs worker) (hworker : p.daemon.worker? = some worker)
    (hreached : Relation.ReflTransGen Scene.Step p q) (side : Side) :
    q.daemon.status? side.id = some (fs side).watch.last := by
  obtain ⟨worker', hworker', h'⟩ := h.reached hworker hreached
  exact status?_staff hworker' h'.staff side

end Simulation

end ChainFollower
