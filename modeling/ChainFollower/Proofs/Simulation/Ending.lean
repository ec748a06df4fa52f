import ChainFollower.Proofs.Simulation.Settling

namespace ChainFollower

namespace Simulation

variable {ν τ : Type} {S : Stores ν τ} {T : Terms} {s : State ν τ} {w : World ν τ} {p q : Scene ν τ}
  {suppressed : Bool} {id : SocketId} {m : Moment ν τ}

theorem mem_games {game : String} (h : game ∈ games) : ∃ side : Side, game = side.id := by
  rcases List.mem_cons.mp h with rfl | h
  · exact ⟨.names, rfl⟩
  · exact ⟨.tally, List.mem_singleton.mp h⟩

/-- No action of a run fails, and what it comes to is a way in which the two can go on. -/
theorem Moment.Shows.run (h : m.Shows S id p) (hkept : p.Kept S T suppressed) (fuel : Nat) :
    ∃ q m', Simulation.run fuel m = (.ok (), m') ∧ Relation.ReflTransGen Scene.Step p q ∧ m'.Shows S id q := by
  induction fuel generalizing m p with
  | zero => exact ⟨p, m, rfl, .refl, h⟩
  | succ fuel ih =>
    unfold Simulation.run
    rw [h.state]
    cases htodo : p.state.todo with
    | nil => exact ⟨p, m, rfl, .refl, h⟩
    | cons action todo =>
      obtain ⟨s, hact, _⟩ := hkept.planned.act htodo
      have hstep : Scene.Step p { p with state := s } := .act htodo hact
      have hshows := h.act hact
      have hkept₁ := hkept.step hstep
      simp only [hact]
      split
      · obtain ⟨p₁, hlapse, hplays⟩ := hshows.handOver.rest s.config.interval
        obtain ⟨q, m', hrun, hreached, hm'⟩ := ih (hshows.takeOver hlapse hplays) (hkept₁.reached hlapse.reached)
        exact ⟨q, m', hrun, .head hstep (hlapse.reached.trans hreached), hm'⟩
      · obtain ⟨q, m', hrun, hreached, hm'⟩ := ih hshows hkept₁
        exact ⟨q, m', hrun, .head hstep hreached, hm'⟩

/-- The daemon is still at work when the wait for the games is over. -/
theorem Moment.Shows.settleAll (h : m.Shows S id p) (hkept : p.Kept S T suppressed) (tip : Tip)
    {gs : List String} (hgames : ∀ game ∈ gs, ∃ side : Side, game = side.id) :
    ∃ q result m', Simulation.settleAll tip gs m = (result, m') ∧ Relation.ReflTransGen Scene.Step p q ∧
      m'.Shows S id q ∧ (q.state.world.chain.Distinct →
        result = .ok () ∨ ∃ game ∈ gs, result = .error (.notReached game tip)) := by
  induction gs generalizing m p with
  | nil => exact ⟨p, .ok (), m, rfl, .refl, h, fun _ => .inl rfl⟩
  | cons game rest ih =>
    obtain ⟨p₁, hlapse, hplays, hgone⟩ :=
      h.handOver.waitFor game (fun status => status = ⟨.synced, some tip⟩) settleTimeout
    have hkept₁ := hkept.reached hlapse.reached
    have hshows := h.takeOver hlapse hplays
    unfold Simulation.settleAll
    simp only
    cases hwaited : (m.handOver.waitFor site game (fun status => status = ⟨.synced, some tip⟩) settleTimeout).1 with
    | status last =>
      obtain ⟨q, result, m', hsettled, hreached, hm', hends⟩ :=
        ih hshows hkept₁ fun other hother => hgames other (List.mem_cons_of_mem _ hother)
      refine ⟨q, result, m', hsettled, hlapse.reached.trans hreached, hm', fun hdistinct => ?_⟩
      refine (hends hdistinct).imp_right fun hlate => ?_
      obtain ⟨other, hother, heq⟩ := hlate
      exact ⟨other, List.mem_cons_of_mem _ hother, heq⟩
    | timedOut =>
      exact ⟨p₁, _, _, rfl, hlapse.reached, hshows, fun _ => .inr ⟨game, List.mem_cons_self, rfl⟩⟩
    | gone =>
      refine ⟨p₁, _, _, rfl, hlapse.reached, hshows, fun hdistinct => ?_⟩
      rcases hgone hwaited with hnone | hstopped
      · obtain ⟨side, rfl⟩ := hgames game List.mem_cons_self
        obtain ⟨worker, fs, hworker, _, hstaff, _⟩ := hkept.worker
        rw [status?_staff hworker hstaff] at hnone
        cases hnone
      · rw [hkept₁.isRunning hdistinct] at hstopped
        cases hstopped

/-- Whatever the simulation ends with is a way in which the two can go on. -/
theorem Moment.Shows.runAll (h : m.Shows S id p) (hkept : p.Kept S T suppressed) :
    ∃ q result m', Simulation.runAll m = (result, m') ∧ Relation.ReflTransGen Scene.Step p q ∧ q.At m' ∧
      (q.state.world.chain.Distinct →
        result = .ok () ∨ ∃ game ∈ games, ∃ tip, result = .error (.notReached game tip)) := by
  obtain ⟨p₁, m₁, hrun, hreached, hm₁⟩ := h.run hkept Worker.patience
  obtain ⟨q, result, m', hsettled, hreached', hm', hends⟩ :=
    hm₁.settleAll (hkept.reached hreached) m₁.state.world.chain.tip fun game hgame => mem_games hgame
  refine ⟨q, result, m', ?_, hreached.trans hreached', hm'.scene, fun hdistinct => ?_⟩
  · rw [Simulation.runAll, hrun]
    exact hsettled
  · refine (hends hdistinct).imp_right fun hlate => ?_
    obtain ⟨game, hgame, heq⟩ := hlate
    exact ⟨game, hgame, _, heq⟩

/-- Actions one after the other, with nothing in between. -/
def State.play : Nat → State ν τ → State ν τ
  | 0, s => s
  | n + 1, s =>
    match s.todo with
    | [] => s
    | action :: todo =>
      match { s with todo }.act action with
      | .ok s' => s'.play n
      | .error _ => s

/-- The simulation without a daemon, where nobody hears anything. -/
def State.alone (s : State ν τ) : State Unit Unit :=
  { s with world := { World.start s.world.chain.network () () with chain := s.world.chain } }

@[simp]
theorem alone_chain (s : State ν τ) : s.alone.world.chain = s.world.chain := rfl

@[simp]
theorem alone_todo (s : State ν τ) : s.alone.todo = s.todo := rfl

/-- What the simulation does to the chain, and what it does next, is no matter of the daemon. -/
theorem act_alone (s : State ν τ) (action : Action) :
    s.alone.act action = (s.act action).map State.alone := by
  cases action with
  | rounds round => rfl
  | mine round mayDrop => rfl
  | unmine =>
    unfold State.act SimulatedChain.detach
    cases hbranch : s.world.chain.branch with
    | nil => simp [State.alone, hbranch, Except.map]
    | cons b below => simp [State.alone, hbranch, Except.map]
  | announce kind game block mayDrop =>
    simp only [State.act, State.announce]
    rw [show s.alone.config = s.config from rfl, show s.alone.announced = s.announced from rfl,
      show s.alone.world.chain = s.world.chain from rfl]
    by_cases hdrop : mayDrop = true ∧ 0 < s.config.dropEvery.toNat ∧
        (s.announced + 1) % s.config.dropEvery.toNat = 0
    · rw [if_pos hdrop, if_pos hdrop]
      rfl
    · rw [if_neg hdrop, if_neg hdrop]
      cases s.world.chain.payload game block.hash <;> rfl
  | rest => rfl

theorem play_alone (s : State ν τ) (n : Nat) : (s.play n).alone = s.alone.play n := by
  induction n generalizing s with
  | zero => rfl
  | succ n ih =>
    unfold State.play
    rw [show s.alone.todo = s.todo from rfl]
    cases s.todo with
    | nil => rfl
    | cons action todo =>
      have hact := act_alone { s with todo } action
      rw [show State.alone { s with todo } = { s.alone with todo } from rfl] at hact
      simp only [hact]
      cases { s with todo }.act action with
      | ok s' => exact ih s'
      | error e => rfl

theorem alone_of_world {s' : State ν τ} (h : s' = { s with world := s'.world })
    (hchain : s'.world.chain = s.world.chain) : s'.alone = s.alone := by
  rw [h, State.alone, hchain]
  rfl

theorem alone_start {config : SimulationConfig} {publisher : Publisher} (h : s = start config s.world publisher)
    {network : Network} (hchain : s.world.chain = .start network) :
    s.alone = start config (World.start network () ()) publisher := by
  rw [h]
  simp only [State.alone, start, hchain]
  rfl

theorem Scene.reached_play (p : Scene ν τ) (n : Nat) :
    Relation.ReflTransGen Step p { p with state := p.state.play n } := by
  induction n generalizing p with
  | zero => exact .refl
  | succ n ih =>
    unfold State.play
    cases htodo : p.state.todo with
    | nil => exact .refl
    | cons action todo =>
      cases hact : { p.state with todo }.act action with
      | error e =>
        simp only [hact]
        exact .refl
      | ok s =>
        simp only [hact]
        exact .head (.act htodo hact) (ih { p with state := s })

/-- The world of a simulation, where a socket hears everything. -/
theorem fresh_tapped (network : Network) {endpoint : String} {tap : SocketId} {bus : Bus}
    (h : Bus.empty.connect endpoint = .ok (tap, bus)) :
    Fresh .memory { World.start network MemoryStore.empty MemoryStore.empty with bus := bus.subscribe tap [] } where
  chain := ⟨network, rfl⟩
  held side := by cases side <;> rfl
  size := (fresh_start network).size
  bus := Bus.fresh_modify (Bus.socket?_connect Bus.fresh_empty h).2.2.1 tap _ fun _ => rfl

/-- Four rounds, of which every second is a reorganization as deep as the records go back. -/
def rehearsed : SimulationConfig :=
  { SimulationConfig.standard with blocks := 4, reorgEvery := 2, reorgDepth := 2, dropEvery := 3 }

def shallow : DaemonConfig := { DaemonConfig.standard [] with pruning := some 1 }

/-- What the simulation has done after so many actions. -/
def rehearsal (n : Nat) : State Unit Unit :=
  (start rehearsed (World.start .regtest () ()) (.start shallow.endpoint)).play n

theorem distinct_rehearsal : (rehearsal 28).world.chain.Distinct := by
  unfold SimulatedChain.Distinct
  decide +kernel

theorem rehearsal_ends : ((rehearsal 28).play 14).todo = [] ∧ ((rehearsal 28).play 14).world.chain.Distinct ∧
    ((rehearsal 28).play 14).world.chain.blocks.length = 9 := by
  unfold SimulatedChain.Distinct
  decide +kernel

/-- In whatever order the two go on: the simulation never fails and comes to its end, with the last block at its
height. As long as no two blocks have one hash, the worker goes on until it has nothing to do, and where that is so at
the end, both games are in step at the last block. Where notifications are not passed on, they stay at the genesis
block. What the simulation ends with when it is run is one of these ways, and it fails only where a game has not got
there in time. -/
theorem settles (S : Stores ν τ) {config : SimulationConfig} {daemonConfig : DaemonConfig}
    (hblocks : config.blocks.toNat < 2 ^ 60)
    (hpruning : ∀ depth, daemonConfig.pruning = some depth → config.reorgDepth.toNat ≤ depth.toNat + 1)
    (hendpoint : daemonConfig.endpoint.isEmpty = false) (hfresh : Fresh S w) :
    ∃ m₀ p₀, Moment.Opens S config daemonConfig w m₀ ∧ Scene.At p₀ m₀ ∧
      (∀ p, Relation.ReflTransGen Scene.Step p₀ p →
        (∀ action todo, p.state.todo = action :: todo → ∃ s, { p.state with todo }.act action = .ok s) ∧
        (∃ q, Relation.ReflTransGen Scene.Step p q ∧ q.state.todo = []) ∧
        (p.state.todo = [] → p.state.world.chain.tip.height.toNat = config.blocks.toNat + 1) ∧
        (daemonConfig.suppressed = true → ∀ game ∈ games,
          p.daemon.status? game = some ⟨.synced, some genesis⟩) ∧
        (p.state.world.chain.Distinct →
          p.daemon.isRunning = true ∧
          (∃ q, Relation.ReflTransGen Scene.Step p q ∧ q.state = { p.state with world := q.state.world } ∧
            q.state.world.chain = p.state.world.chain ∧ q.Idle) ∧
          (daemonConfig.suppressed = false → p.state.todo = [] → p.Idle → ∀ game ∈ games,
            p.daemon.status? game = some ⟨.synced, some p.state.world.chain.tip⟩))) ∧
      ∃ p result m, Simulation.runAll m₀ = (result, m) ∧ Relation.ReflTransGen Scene.Step p₀ p ∧ p.At m ∧
        (p.state.world.chain.Distinct →
          result = .ok () ∨ ∃ game ∈ games, ∃ tip, result = .error (.notReached game tip)) := by
  obtain ⟨m₀, p₀, fs, hopens, hshows, _, _, hworker, hlast, hkept₀⟩ :=
    exists_kept hblocks hpruning hendpoint hfresh
  refine ⟨m₀, p₀, hopens, hshows.scene, fun p hreached => ?_, hshows.runAll hkept₀⟩
  have hkept := hkept₀.reached hreached
  refine ⟨fun action todo htodo => ?_, hkept.exists_finished, fun htodo => ?_, fun hsuppressed game hgame => ?_,
    fun hdistinct => ⟨hkept.isRunning hdistinct, hkept.exists_idle hdistinct,
      fun hsuppressed htodo hidle game hgame => ?_⟩⟩
  · obtain ⟨s, hs, _⟩ := hkept.planned.act htodo
    exact ⟨s, hs⟩
  · rw [hkept.planned.height_of_nil htodo, hkept.planned.blocks]
  · obtain ⟨side, rfl⟩ := mem_games hgame
    rw [hsuppressed] at hworker
    have hmuted : Muted S fs (.start w.bus.nextId (staff S fs) .empty true) := ⟨rfl, rfl, rfl, .inl rfl⟩
    rw [hmuted.status? hworker hreached, hlast]
  · obtain ⟨side, rfl⟩ := mem_games hgame
    rw [hsuppressed] at hkept
    exact hkept.settled hdistinct htodo hidle side

/-- The worker catches up in the middle of the second reorganization and at the end. -/
theorem settles_rehearsed : ∃ tap bus m₀ p₀ p q, Bus.empty.connect shallow.endpoint = .ok (tap, bus) ∧
    Moment.Opens .memory rehearsed shallow
      { World.start .regtest .empty .empty with bus := bus.subscribe tap [] } m₀ ∧ Scene.At p₀ m₀ ∧
    Relation.ReflTransGen Scene.Step p₀ p ∧ p.Idle ∧ p.state.todo = (rehearsal 28).todo ∧
    Relation.ReflTransGen Scene.Step p q ∧ q.Idle ∧ q.state.todo = [] ∧ q.daemon.isRunning = true ∧
    q.state.world.chain.blocks.length = 9 ∧ q.state.world.chain.tip.height.toNat = 5 ∧
    ∀ game ∈ games, q.daemon.status? game = some ⟨.synced, some q.state.world.chain.tip⟩ := by
  obtain ⟨tap, bus, htap⟩ : ∃ tap bus, Bus.empty.connect shallow.endpoint = .ok (tap, bus) := ⟨_, _, rfl⟩
  have hfresh := fresh_tapped .regtest htap
  have hblocks : rehearsed.blocks.toNat < 2 ^ 60 := by decide
  have hpruning : ∀ depth, shallow.pruning = some depth → rehearsed.reorgDepth.toNat ≤ depth.toNat + 1 := by
    rintro _ ⟨⟩
    decide
  have hendpoint : shallow.endpoint.isEmpty = false := by decide
  obtain ⟨m₀, p₀, hopens, hat, hall, _⟩ := settles .memory hblocks hpruning hendpoint hfresh
  obtain ⟨m₀', p₀', _, hopens', hshows, hstate, hchain, _⟩ := exists_kept hblocks hpruning hendpoint hfresh
  obtain rfl := hopens.unique hopens'
  obtain rfl := hat.unique hshows.scene
  have halone := alone_start hstate hchain
  have hmiddle : (p₀.state.play 28).alone = rehearsal 28 := by rw [play_alone, halone, rehearsal]
  have hdistinct : (p₀.state.play 28).world.chain.Distinct := by
    rw [← alone_chain, hmiddle]
    exact distinct_rehearsal
  have hreached := p₀.reached_play 28
  obtain ⟨_, _, _, _, hall₁⟩ := hall _ hreached
  obtain ⟨_, ⟨p, hworked, hstate', hchain', hidle⟩, _⟩ := hall₁ hdistinct
  -- The worker has changed nothing that the simulation goes by, so it goes on as it would alone.
  have hp : p.state.alone = rehearsal 28 := (alone_of_world hstate' hchain').trans hmiddle
  have hended : (p.state.play 14).alone = (rehearsal 28).play 14 := by rw [play_alone, hp]
  obtain ⟨hnil, hdistinct', hmined⟩ := rehearsal_ends
  rw [← hended, alone_todo] at hnil
  rw [← hended, alone_chain] at hdistinct' hmined
  have hreached' := (hreached.trans hworked).trans (p.reached_play 14)
  obtain ⟨_, _, _, _, hall₂⟩ := hall _ hreached'
  obtain ⟨_, ⟨q, hworked', hstate'', hchain'', hidle'⟩, _⟩ := hall₂ hdistinct'
  have hq := hreached'.trans hworked'
  obtain ⟨_, _, hheight, _, hall₃⟩ := hall q hq
  have hend : q.state.todo = [] := by
    rw [hstate'']
    exact hnil
  obtain ⟨hrunning, _, hsettled⟩ := hall₃ (hchain''.symm ▸ hdistinct')
  refine ⟨tap, bus, m₀, p₀, p, q, htap, hopens, hat, hreached.trans hworked, hidle, ?_,
    (p.reached_play 14).trans hworked', hidle', hend, hrunning, ?_, hheight hend, hsettled rfl hend hidle'⟩
  · rw [← hp, alone_todo]
  · rw [hchain'']
    exact hmined

def suppressing : DaemonConfig := { shallow with suppressed := true }

/-- Where notifications are not passed on, the games stay at the genesis block. And with `2 ^ 60` blocks behind
it the game that counts moves, whose buffers have grown to the length of its state, cannot take another. -/
theorem not_settled_suppressed :
    (∃ m₀ p₀ p, Moment.Opens .memory rehearsed suppressing (.start .regtest .empty .empty) m₀ ∧ Scene.At p₀ m₀ ∧
      Relation.ReflTransGen Scene.Step p₀ p ∧ p.state.world.chain.Distinct ∧ p.state.todo = [] ∧ p.Idle ∧
      ∀ game ∈ games, p.daemon.status? game ≠ some ⟨.synced, some p.state.world.chain.tip⟩) ∧
    ∀ network state block (w : World MemoryStore MemoryStore), state.length = 4 * 2 ^ 60 →
      w.buffer.size = 2 ^ 62 →
      ((Stores.memory.host .tally).answer (.forward network state block) w).1 =
        .error (.broken .tooLarge) := by
  refine ⟨?_, fun network state block w hlength hsize =>
    Tally.forward_tooLarge genesis network block hsize (by omega)⟩
  have hblocks : rehearsed.blocks.toNat < 2 ^ 60 := by decide
  have hpruning : ∀ depth, suppressing.pruning = some depth → rehearsed.reorgDepth.toNat ≤ depth.toNat + 1 := by
    rintro _ ⟨⟩
    decide
  have hendpoint : suppressing.endpoint.isEmpty = false := by decide
  obtain ⟨m₀, p₀, fs, hopens, hshows, hstate, hchain, hworker, hlast, hkept⟩ :=
    exists_kept hblocks hpruning hendpoint (fresh_start .regtest)
  have halone := alone_start hstate hchain
  have hended : ((p₀.state.play 28).play 14).alone = (rehearsal 28).play 14 := by
    rw [play_alone, play_alone, halone, rehearsal]
    rfl
  obtain ⟨hnil, hdistinct, _⟩ := rehearsal_ends
  rw [← hended, alone_todo] at hnil
  rw [← hended, alone_chain] at hdistinct
  have hreached := (p₀.reached_play 28).trans (Scene.reached_play { p₀ with state := p₀.state.play 28 } 14)
  obtain ⟨p, hworked, hstate', hsame, hidle⟩ := (hkept.reached hreached).exists_idle hdistinct
  have hp := hreached.trans hworked
  have hend : p.state.todo = [] := by
    rw [hstate']
    exact hnil
  have hheight := (hkept.reached hp).planned.height_of_nil hend
  have hmuted : Muted .memory fs (.start (World.start .regtest MemoryStore.empty MemoryStore.empty).bus.nextId
      (staff .memory fs) .empty true) := ⟨rfl, rfl, rfl, .inl rfl⟩
  refine ⟨m₀, p₀, p, hopens, hshows.scene, hp, hsame ▸ hdistinct, hend, hidle, fun game hgame heq => ?_⟩
  obtain ⟨side, rfl⟩ := mem_games hgame
  rw [hmuted.status? hworker hp, hlast] at heq
  rw [← Option.some.inj (Status.mk.inj (Option.some.inj heq)).2] at hheight
  exact Nat.succ_ne_zero _ hheight.symm

end Simulation

end ChainFollower
