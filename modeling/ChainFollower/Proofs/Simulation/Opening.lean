import ChainFollower.Proofs.Simulation.Turns

namespace ChainFollower

namespace Simulation

open SimulatedChain (top)

variable {ν τ : Type} {S : Stores ν τ} {T : Terms} {side : Side} {w w' : World ν τ} {t : Ensemble (World ν τ)}
  {daemonConfig : DaemonConfig}

theorem run_asks {σ : Type} {answer : Follower → (r : Request) → σ → r.Reply × σ} {rest : Duration → σ → σ}
    {f : Follower} {call : Call} {s s' : σ} {reply : (f.request call).Reply} (fuel : Nat)
    (h : answer f (f.request call) s = (reply, s')) :
    Follower.run answer rest (fuel + 1) (f, .asks call) s =
      Follower.run answer rest fuel (f.proceed call reply) s' := by
  simp only [Follower.run, h]

theorem call_grounds {α : Type} {g : World ν τ → α × World ν τ} {a : α} (h : g t.world = (a, w')) :
    (Ensemble.grounds site).call g t = (a, { t with world := w' }) := by
  simp only [Grounds.call, within, Ensemble.grounds, h]

/-- The chain has only its genesis block, and nothing has been stored. -/
structure Fresh (S : Stores ν τ) (w : World ν τ) : Prop where
  chain : ∃ network, w.chain = .start network
  held : ∀ side, (S.held side w).current = none
  size : w.buffer.size ≤ Buffered.maxSize
  bus : w.bus.Fresh

theorem fresh_start (network : Network) : Fresh .memory (.start network .empty .empty) where
  chain := ⟨network, rfl⟩
  held side := by cases side <;> rfl
  size := show Buffered.initialSize ≤ Buffered.maxSize by decide
  bus := Bus.fresh_empty

theorem names_host (S : Stores ν τ) (side : Side) (hsize : w.buffer.size ≤ Buffered.maxSize) :
    ∃ names w', (S.host side).game.names w = (.ok names, w') ∧ names.id = side.id ∧ Apart S side w w' ∧
      S.held side w' = S.held side w := by
  cases side with
  | names => exact ⟨_, w, rfl, rfl, .refl S _ w, rfl⟩
  | tally =>
    obtain ⟨size, hle, hreply⟩ := Tally.names_eq genesis hsize
    refine ⟨⟨Tally.id, "Move tally", "0.1.0"⟩, { w with buffer := ⟨(), size⟩ }, ?_, rfl,
      apart_buffer hle, rfl⟩
    change within World.buffer (fun buffer w => { w with buffer }) (Tally.game genesis).names w = _
    rw [within, hreply]

/-- On the genesis block. -/
theorem follows_genesis {known : List Header} {held : Holdings} {f : Follower} {v : View}
    (hview : f.view = some v)
    (hretry : f.retry = T.retry) (hpruning : ∀ n, f.pruning = some n → T.depth ≤ n.toNat + 1)
    (hinitial : v.initial = genesis) (htip : v.current.tip = genesis)
    (hvalid : side.Valid 0 v.current.state) :
    Follows side T known held (f.setState .synced) v [] :=
  ⟨hview, hretry, hpruning, Watch.last_publish, hinitial,
    by simp [Follower.setState, Follower.publish], trivial, htip,
    hvalid, covered_nil⟩

/-- A follower that has just been initialized. -/
def Initialized (S : Stores ν τ) (T : Terms) (side : Side) (w : World ν τ) (f : Follower) : Prop :=
  f.state = .synced ∧ ∃ v, Follows side T w.chain.known (S.held side w) f v []

theorem run_initialized (hc : w.chain.Grown) (hbranch : w.chain.branch = [])
    (hheld : (S.held side w).current = none)
    (hsize : w.buffer.size ≤ Buffered.maxSize) (hworld : t.world = w) {pruning : Option UInt64}
    (hpruning : ∀ n, pruning = some n → T.depth ≤ n.toNat + 1) (game : String) :
    ∃ f w', Follower.run (fun _ r => (Ensemble.grounds site).call ((S.host side).answer r))
        (Ensemble.grounds site).rest Follower.patience (Follower.start game T.retry pruning).initialized t =
          ((f, .returned (.ok ())), { t with world := w' }) ∧
      Apart S side w w' ∧ Initialized S T side w' f := by
  subst hworld
  have hpatience : Follower.patience = Follower.patience - 6 + 1 + 1 + 1 + 1 + 1 + 1 := by decide
  have htip : t.world.chain.tip = genesis := by
    rw [SimulatedChain.tip, SimulatedChain.tipHeader, hbranch]
    rfl
  obtain ⟨state, w₁, hinitial, hapart₁, hheld₁, hvalid⟩ := S.answer_initial side t.world.chain.network hsize
  obtain ⟨w₂, hload, hapart₂, hheld₂⟩ := S.answer_load side w₁
  obtain ⟨w₃, hcommit, hapart₃, hheld₃⟩ := S.answer_commit side (.withoutUndo genesis state) w₂
  rw [hheld₁, hheld] at hload
  have hapart := (hapart₁.trans hapart₂).trans hapart₃
  have hinfo := S.answer_chain side .info t.world
  have hinfo₃ := S.answer_chain side .info w₃
  rw [answer_info hc] at hinfo
  rw [hapart.chain, answer_info hc, htip] at hinfo₃
  let start := Follower.start game T.retry pruning
  let settled := (start.settled t.world.chain.network ⟨state, genesis.height, genesis.hash⟩
    ⟨genesis, state⟩).1
  have hview : settled.view = some ⟨t.world.chain.network, genesis, ⟨genesis, state⟩⟩ := rfl
  have htarget : settled.targetKnown 1 genesis = (settled.setState .synced, .returned (.ok ())) := by
    unfold Follower.targetKnown
    rw [hview]
    exact if_pos rfl
  refine ⟨settled.setState .synced, w₃, ?_, hapart, rfl,
    ⟨t.world.chain.network, genesis, ⟨genesis, state⟩⟩, ?_⟩
  · rw [hpatience, Follower.initialized, run_asks _ (call_grounds hinfo)]
    change Follower.run _ _ _ (start, .asks (.begin t.world.chain.network)) _ = _
    rw [run_asks _ (call_grounds hinitial)]
    change Follower.run _ _ _ (start, .asks (.resume t.world.chain.network _)) _ = _
    rw [run_asks _ (call_grounds hload)]
    change Follower.run _ _ _ (start, .asks (.create t.world.chain.network _)) _ = _
    rw [run_asks _ (call_grounds hcommit)]
    change Follower.run _ _ _ (settled, .asks (.target 1)) _ = _
    rw [run_asks _ (call_grounds hinfo₃)]
    change Follower.run _ _ _ (settled.targetKnown 1 genesis) _ = _
    rw [htarget]
    rfl
  · exact follows_genesis hview rfl hpruning rfl rfl hvalid

/-- What a daemon asks of its settings beside a simulation. -/
structure Suits (T : Terms) (daemonConfig : DaemonConfig) : Prop where
  retry : daemonConfig.retry = T.retry
  pruning : ∀ n, daemonConfig.pruning = some n → T.depth ≤ n.toNat + 1
  endpoint : daemonConfig.endpoint.isEmpty = false

theorem openGame_side (side : Side) (hsuits : Suits T daemonConfig) (hc : t.world.chain.Grown)
    (hbranch : t.world.chain.branch = [])
    (hheld : (S.held side t.world).current = none) (hsize : t.world.buffer.size ≤ Buffered.maxSize)
    {taken : List String} (htaken : side.id ∉ taken) :
    ∃ names f w', Daemon.openGame site (Ensemble.grounds site) daemonConfig source taken
        ⟨(S.host side).game, some (S.host side).store⟩ t =
          (.ok (names, ⟨f, S.host side⟩), { t with world := w' }) ∧
      names.id = side.id ∧ Apart S side t.world w' ∧ Initialized S T side w' f := by
  obtain ⟨names, w₁, hnames, hid, hapart₁, hheld₁⟩ := names_host S side hsize
  obtain ⟨f, w₂, hrun, hapart₂, hinitialized⟩ :=
    run_initialized (t := { t with world := w₁ }) (w := w₁) (S := S) (T := T) (hapart₁.chain ▸ hc)
      (hapart₁.chain ▸ hbranch) (hheld₁ ▸ hheld) (hapart₁.size hsize) rfl hsuits.pruning names.id
  refine ⟨names, f, w₂, ?_, hid, hapart₁.trans hapart₂, hinitialized⟩
  have hcontains : taken.contains names.id = false := by simpa [hid] using htaken
  have hstore : (Ensemble.grounds site).call (site.storeFor daemonConfig names.id
      ⟨(S.host side).game, some (S.host side).store⟩) { t with world := w₁ } =
        (.ok (S.host side).store, { t with world := w₁ }) := rfl
  have hhost : (⟨source, (S.host side).store, (S.host side).game⟩ : Host (World ν τ)) = S.host side := by
    cases side <;> rfl
  unfold Daemon.openGame
  rw [call_grounds hnames]
  simp only [hcontains, Bool.false_eq_true, if_false, hstore, hhost, hsuits.retry, hrun]

theorem Initialized.same {f : Follower} (h : Initialized S T side w f) (hchain : w'.chain = w.chain)
    (hheld : S.held side w' = S.held side w) : Initialized S T side w' f := by
  unfold Initialized
  rw [hchain, hheld]
  exact h

theorem Initialized.last {f : Follower} (h : Initialized S T side w f) :
    f.watch.last = ⟨.synced, some genesis⟩ := by
  obtain ⟨hstate, v, hf⟩ := h
  rw [hf.published, Follower.status, Follower.tip?, hf.view, hstate, Option.map_some, hf.tip]
  rfl

/-- Both games are opened. -/
theorem openGames_registrations (hsuits : Suits T daemonConfig) (hfresh : Fresh S w) (hworld : t.world = w) :
    ∃ games fs w', Daemon.openGames site (Ensemble.grounds site) daemonConfig source
        (registrations S.names S.tally)
        ⟨[], Subscriber.start daemonConfig.suppressed⟩ t =
          (.ok ⟨games, { Subscriber.start daemonConfig.suppressed with listeners := staff S fs }⟩,
            { t with world := w' }) ∧
      w'.chain = w.chain ∧ w'.bus = w.bus ∧ w'.buffer.size ≤ Buffered.maxSize ∧
      ∀ side, Initialized S T side w' (fs side) := by
  subst hworld
  obtain ⟨network, hnetwork⟩ := hfresh.chain
  have hc : t.world.chain.Grown := hnetwork ▸ SimulatedChain.grown_start network
  have hbranch : t.world.chain.branch = [] := by
    rw [hnetwork]
    rfl
  obtain ⟨names₁, f₁, w₁, hopen₁, hid₁, hapart₁, hinitialized₁⟩ := openGame_side .names hsuits hc hbranch
    (hfresh.held .names) hfresh.size (List.not_mem_nil (a := Side.names.id))
  have hheld₂ : (S.held .tally w₁).current = none := by
    rw [hapart₁.held .tally (by decide)]
    exact hfresh.held .tally
  have htaken : Side.tally.id ∉ [Side.names.id] := by decide
  obtain ⟨names₂, f₂, w₂, hopen₂, hid₂, hapart₂, hinitialized₂⟩ := openGame_side (t := { t with world := w₁ })
    .tally hsuits (hapart₁.chain ▸ hc) (hapart₁.chain ▸ hbranch) hheld₂ (hapart₁.size hfresh.size) htaken
  refine ⟨[names₁, names₂], fun side => Side.casesOn side f₁ f₂, w₂, ?_,
    hapart₂.chain.trans hapart₁.chain, hapart₂.bus.trans hapart₁.bus,
    hapart₂.size (hapart₁.size hfresh.size), ?_⟩
  · have hregistrations : registrations S.names S.tally =
        [⟨(S.host .names).game, some (S.host .names).store⟩,
          ⟨(S.host .tally).game, some (S.host .tally).store⟩] := rfl
    rw [hregistrations]
    simp only [Daemon.openGames, List.map_nil, hopen₁, List.nil_append, List.map_cons, hopen₂, hid₁, hid₂]
    rfl
  · intro side
    cases side with
    | names => exact hinitialized₁.same hapart₂.chain (hapart₂.held .names (by decide))
    | tally => exact hinitialized₂

theorem launch_ok {σ : Type} (site : Site σ) {daemon : Daemon σ} (hworker : daemon.subscriber.worker = none)
    (hendpoint : daemonConfig.endpoint.isEmpty = false) (s : σ) :
    ∃ subscriber bus, { daemon.subscriber with endpoint := some daemonConfig.endpoint }.launch (site.bus s) =
      .ok (subscriber, bus) ∧
      daemon.launch site daemonConfig s = (.ok { daemon with subscriber }, site.setBus bus s) := by
  have hlaunch : ∃ out,
      { daemon.subscriber with endpoint := some daemonConfig.endpoint }.launch (site.bus s) = .ok out := by
    simp only [Subscriber.launch, Subscriber.isStarted, hworker, Option.isSome_none, Bool.false_eq_true, if_false,
      Bus.connect, hendpoint]
    exact ⟨_, rfl⟩
  obtain ⟨⟨subscriber, bus⟩, hlaunch⟩ := hlaunch
  refine ⟨subscriber, bus, hlaunch, ?_⟩
  simp only [Daemon.launch, hlaunch]

theorem build_ok {σ : Type} {site : Site σ} {transport : Bool} {source : Option (Source σ)}
    {registrations : List (Registration σ)} {e e' : Ensemble σ} {daemon : Daemon σ}
    (h : Daemon.build site (Ensemble.grounds site) daemonConfig transport source registrations
      { e with left := Worker.turnLength } = (.ok daemon, e')) :
    e.build site daemonConfig transport source registrations = (.ok (), e'.lead site daemon) := by
  rw [Ensemble.build, h]

/-- The first daemon leads, and is the only one. -/
theorem lead_first {e : Ensemble (World ν τ)} {daemon : Daemon (World ν τ)}
    {worker : Worker (Hosted (World ν τ))}
    (hfirst : e.daemons = []) (hleading : e.leading = none) (hworker : daemon.worker? = some worker) :
    e.lead site daemon = { e with
      daemons := [(worker.socket, daemon)]
      leading := some worker.socket
      ready := e.ready ++ [worker.socket] } := by
  simp only [Ensemble.lead, hworker, hleading, hfirst, List.nil_append, Option.elim_none]

/-- The daemon is built, and its worker is about to begin. -/
theorem exists_opens (hsuits : Suits T daemonConfig) (hfresh : Fresh S w) (config : SimulationConfig) :
    ∃ m p fs, Moment.Opens S config daemonConfig w m ∧ m.Shows S w.bus.nextId p ∧
      p.state = start config p.state.world (.start daemonConfig.endpoint) ∧
      p.daemon.worker? = some (.start w.bus.nextId (staff S fs) .empty daemonConfig.suppressed) ∧
      p.state.world.chain = w.chain ∧ p.state.world.buffer.size ≤ Buffered.maxSize ∧
      p.state.world.bus.socket? w.bus.nextId = some ⟨w.bus.nextId, daemonConfig.endpoint, subscriptions, []⟩ ∧
      ∀ side, Initialized S T side p.state.world (fs side) := by
  obtain ⟨games, fs, w₁, hopen, hchain, hbus, hsize, hinitialized⟩ :=
    openGames_registrations (t := Ensemble.start w) hsuits hfresh rfl
  have hworker : (⟨games, { Subscriber.start daemonConfig.suppressed with listeners := staff S fs }⟩ :
      Daemon (World ν τ)).subscriber.worker = none := rfl
  obtain ⟨subscriber, bus, hsubscriber, hlaunch⟩ := launch_ok site hworker hsuits.endpoint w₁
  have hbusfresh : (site.bus w₁).Fresh := by
    change w₁.bus.Fresh
    rw [hbus]
    exact hfresh.bus
  obtain ⟨endpoint, _, hendpoint, hlaunched, _, _, hsocket⟩ := Subscriber.launch_eq_ok hbusfresh hsubscriber
  have hid : (site.bus w₁).nextId = w.bus.nextId := congrArg Bus.nextId hbus
  rw [hid] at hlaunched hsocket
  cases hendpoint
  have hstarted : (⟨games, subscriber⟩ : Daemon (World ν τ)).worker? =
      some (.start w.bus.nextId (staff S fs) .empty daemonConfig.suppressed) := by
    rw [hlaunched]
    rfl
  have hdaemon : Daemon.build site (Ensemble.grounds site) daemonConfig true (some source)
      (registrations S.names S.tally) (Ensemble.start w) =
        (.ok ⟨games, subscriber⟩, { Ensemble.start w with world := { w₁ with bus } }) := by
    have hsome : (registrations S.names S.tally).isEmpty = false := rfl
    unfold Daemon.build
    simp only [Bool.not_true, Bool.false_eq_true, if_false, hsome, hopen]
    exact call_grounds hlaunch
  have hbuild : (Ensemble.start w).build site daemonConfig true (some source)
        (registrations S.names S.tally) =
      (.ok (), ({ Ensemble.start w with world := { w₁ with bus } }).lead site ⟨games, subscriber⟩) :=
    build_ok (e := Ensemble.start w) hdaemon
  rw [lead_first rfl rfl hstarted] at hbuild
  refine ⟨_, ⟨start config { w₁ with bus } (.start daemonConfig.endpoint), ⟨games, subscriber⟩⟩, fs,
    ⟨_, hbuild, rfl⟩, ⟨rfl, rfl, rfl, rfl, ⟨_, hstarted, ⟨fs, rfl⟩, rfl⟩, nofun⟩, rfl, hstarted, hchain, hsize, hsocket,
    fun side => ?_⟩
  exact (hinitialized side).same rfl (by cases side <;> rfl)

end Simulation

end ChainFollower
