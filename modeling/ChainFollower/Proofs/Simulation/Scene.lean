import ChainFollower.Proofs.Simulation.Plan
import ChainFollower.Proofs.Simulation.Works

namespace ChainFollower

namespace Daemon

variable {σ : Type} {site : Site σ} {d d' : Daemon σ} {w w' : Worker (Hosted σ)} {s s' : σ}

/-- The same daemon with another worker. -/
def withWorker (d : Daemon σ) (w : Worker (Hosted σ)) : Daemon σ :=
  { d with subscriber := { d.subscriber with worker := some w } }

theorem withWorker_self (h : d.worker? = some w) : d.withWorker w = d := by
  obtain ⟨games, ⟨suppressed, endpoint, listeners, tracker, worker⟩⟩ := d
  cases h
  rfl

/-- One step of the worker. -/
def step? (site : Site σ) (d : Daemon σ) (s : σ) : Option (Daemon σ × σ) :=
  match d.worker? with
  | none => none
  | some w =>
    match w.step? (surroundings site) (site.now s) s with
    | none => none
    | some (w, s) => some (d.withWorker w, site.setBus (Subscriber.release w (site.bus s)) s)

theorem step?_eq_some (h : d.step? site s = some (d', s')) :
    ∃ w w' s₁, d.worker? = some w ∧ w.step? (surroundings site) (site.now s) s = some (w', s₁) ∧
      d'.worker? = some w' ∧ s' = site.setBus (Subscriber.release w' (site.bus s₁)) s₁ := by
  unfold step? at h
  split at h
  · cases h
  · next w hw =>
    split at h
    · cases h
    · next w' s₁ hstep =>
      cases h
      exact ⟨w, w', s₁, hw, hstep, rfl, rfl⟩

theorem step?_of_step? (hw : d.worker? = some w)
    (h : w.step? (surroundings site) (site.now s) s = some (w', s')) :
    d.step? site s = some (d.withWorker w', site.setBus (Subscriber.release w' (site.bus s')) s') := by
  simp only [step?, hw, h]

end Daemon

namespace Simulation

open SimulatedChain (Rooted top)

structure Scene (ν τ : Type) where
  state : State ν τ
  daemon : Daemon (World ν τ)

variable {ν τ : Type}

/-- The simulation acts, the daemon's worker does something or takes the games in another order, or time
passes. -/
inductive Scene.Step : Scene ν τ → Scene ν τ → Prop
  | act {p : Scene ν τ} {action : Action} {todo : List Action} {s : State ν τ}
      (htodo : p.state.todo = action :: todo) (h : { p.state with todo }.act action = .ok s) :
      Step p { p with state := s }
  | work {p : Scene ν τ} {daemon : Daemon (World ν τ)} {world : World ν τ}
      (h : p.daemon.step? site p.state.world = some (daemon, world)) :
      Step p ⟨{ p.state with world }, daemon⟩
  | reorder {p : Scene ν τ} {worker worker' : Worker (Hosted (World ν τ))}
      (hworker : p.daemon.worker? = some worker) (h : worker.Reordered worker') :
      Step p { p with daemon := p.daemon.withWorker worker' }
  | wait {p : Scene ν τ} (now : Nat) (h : p.state.world.now ≤ now) :
      Step p { p with state := { p.state with world := { p.state.world with now } } }

/-- The moment in which a daemon has just been built and the simulation is about to run. -/
def Moment.Opens (S : Stores ν τ) (config : SimulationConfig) (daemonConfig : DaemonConfig) (w : World ν τ)
    (m : Moment ν τ) : Prop :=
  ∃ e, (Ensemble.start w).build site daemonConfig true (some source) (registrations S.names S.tally) =
    (.ok (), e) ∧ m = ⟨start config e.world (.start daemonConfig.endpoint), e⟩

/-- The simulation and its daemon are where they are at this moment. -/
structure Scene.At (p : Scene ν τ) (m : Moment ν τ) : Prop where
  state : m.state = p.state
  leader : m.ensemble.leader? = some p.daemon

theorem Moment.Opens.unique {S : Stores ν τ} {config : SimulationConfig} {daemonConfig : DaemonConfig}
    {w : World ν τ} {m m' : Moment ν τ} (h : m.Opens S config daemonConfig w) (h' : m'.Opens S config daemonConfig w) :
    m = m' := by
  obtain ⟨e, hbuild, rfl⟩ := h
  obtain ⟨e', hbuild', rfl⟩ := h'
  rw [(Prod.mk.inj (hbuild.symm.trans hbuild')).2]

theorem Scene.At.unique {p p' : Scene ν τ} {m : Moment ν τ} (h : p.At m) (h' : p'.At m) : p = p' := by
  obtain ⟨state, daemon⟩ := p
  obtain ⟨state', daemon'⟩ := p'
  cases h.state.symm.trans h'.state
  cases h.leader.symm.trans h'.leader
  rfl

/-- The worker has nothing to do. -/
def Scene.Idle (p : Scene ν τ) : Prop :=
  ∃ worker, p.daemon.worker? = some worker ∧ worker.activity = .free ∧ worker.errands = [] ∧
    p.state.world.bus.pop? worker.socket = none

variable {S : Stores ν τ} {T : Terms} {side : Side} {s s' : State ν τ} {c c' : SimulatedChain}
  {f : Follower} {bs : List Header} {b : Header} {w w' : World ν τ} {todo : List Action} {queue : List Frames}
  {worker worker' : Worker (Hosted (World ν τ))} {fs : Side → Follower}

/-- A message about a mined block. -/
def Posted (c : SimulatedChain) (m : Frames) : Prop :=
  ∃ kind, ∃ side : Side, ∃ b : MinedBlock, ∃ seq, m = Publisher.frames kind side.id (b.payload side.id) seq ∧
    Json.Tidy Json.maxDepth (b.payload side.id) ∧ Reported c kind b.header

/-- A call of one of the followers, about a mined block or none. -/
def Told (c : SimulatedChain) : Errand → Prop
  | .started seat => ∃ side : Side, seat = side.seat
  | .notified seat n =>
    ∃ side : Side, seat = side.seat ∧ ∃ b, payloadHeader n.payload = .ok b ∧ Reported c n.kind b

theorem Posted.mono {m : Frames} (h : Posted c m) (honward : Onward c c') : Posted c' m := by
  obtain ⟨kind, side, b, seq, hm, htidy, hreported⟩ := h
  exact ⟨kind, side, b, seq, hm, htidy, hreported.mono honward⟩

theorem Told.mono {errand : Errand} (h : Told c errand) (honward : Onward c c') : Told c' errand := by
  cases errand with
  | started seat => exact h
  | notified seat n =>
    obtain ⟨side, hseat, b, hheader, hreported⟩ := h
    exact ⟨side, hseat, b, hheader, hreported.mono honward⟩

/-- The message is taken for what was sent. -/
theorem notice?_posted (hstaff : worker.listeners = staff S fs) (kind : EventKind) (side : Side) {j : Json}
    (htidy : Json.Tidy Json.maxDepth j) (seq : UInt32) :
    ∃ n, worker.notice? (Publisher.frames kind side.id j seq) = some n ∧ n.game = side.id ∧ n.kind = kind ∧
      n.payload = j := by
  simp only [Worker.notice?, Publisher.frames, Message.ofFrames, Bytes.toUInt32?_ofUInt32, Worker.channel?,
    Utf8.decode?_encode, Topic.parse?_text, hstaff, lookup_staff, Json.parse?_bytes htidy, Option.bind_eq_bind,
    Option.bind_some, Option.map_some]
  exact ⟨_, rfl, rfl, rfl, rfl⟩

/-- The beginnings of the messages that the worker gets. -/
def subscriptions : List Bytes := (Subscriber.topics games).map Utf8.encode

theorem accepts_posted {sock : Socket} (hsubscriptions : sock.subscriptions = subscriptions)
    (kind : EventKind)
    (side : Side) (j : Json) (seq : UInt32) : sock.accepts (Publisher.frames kind side.id j seq) = true := by
  have hgame : side.id ∈ games := by cases side <;> simp [games, Side.id]
  exact Socket.accepts_topic hsubscriptions hgame kind [j.bytes, Bytes.ofUInt32 seq]

/-- The worker waits for a reply to this call of a follower. -/
def Engaged (worker : Worker (Hosted (World ν τ))) (side : Side) (call : Call) : Prop :=
  worker.activity = .asking side.seat call ∨ ∃ due, worker.activity = .resting side.seat due call

/-- How much the worker has to do before it is free. -/
inductive Busy (T : Terms) (blocks : Side → List Header) (worker : Worker (Hosted (World ν τ))) : Nat → Prop
  | free (h : worker.activity = .free) : Busy T blocks worker 0
  | asking (side : Side) (call : Call) (h : worker.activity = .asking side.seat call) :
      Busy T blocks worker (2 * rank T (blocks side).length call + 1)
  | resting (side : Side) (due : Nat) (call : Call) (h : worker.activity = .resting side.seat due call) :
      Busy T blocks worker (2 * rank T (blocks side).length call + 2)

/-- The follower will be told that this block was attached. -/
inductive Due (side : Side) (b : Header) (todo : List Action) (queue : List Frames)
    (errands : List Errand) : Prop
  | planned (h : .announce .attach side.id b false ∈ todo)
  | sent (m : MinedBlock) (seq : UInt32)
      (h : Publisher.frames .attach side.id (m.payload side.id) seq ∈ queue)
      (htidy : Json.Tidy Json.maxDepth (m.payload side.id)) (hheader : m.header = b)
  | taken (n : Notification) (h : .notified side.seat n ∈ errands) (hkind : n.kind = .attach)
      (hheader : payloadHeader n.payload = .ok b)

/-- The follower has applied these blocks and knows what its call needs. -/
def Serves (S : Stores ν τ) (T : Terms) (w : World ν τ) (worker : Worker (Hosted (World ν τ))) (side : Side)
    (f : Follower) (bs : List Header) : Prop :=
  ∃ v, Follows side T w.chain.known (S.held side w) f v bs ∧
    ∀ call, Engaged worker side call → Knows side T w.chain (S.held side w) f v bs call

/-- The follower is at the end of the chain, or its call leads there. -/
def Homeward (c : SimulatedChain) (worker : Worker (Hosted (World ν τ))) (side : Side) (f : Follower)
    (bs : List Header) : Prop :=
  (∀ call, Engaged worker side call → Homing c bs call) ∧
    ((∀ call, ¬Engaged worker side call) → Settled c f bs)

/-- What a proof keeps account of beside a scene. -/
structure Account where
  followers : Side → Follower
  /-- The blocks that each follower has applied. -/
  blocks : Side → List Header
  /-- The messages that wait for the worker. -/
  queue : List Frames
  /-- How much is left of the call that is going on. -/
  left : Nat

/-- What holds of simulation and worker after every step, as long as no two blocks have one hash. -/
structure Attends (S : Stores ν τ) (T : Terms) (a : Account) (s : State ν τ)
    (worker : Worker (Hosted (World ν τ))) : Prop where
  staff : worker.listeners = staff S a.followers
  going : worker.stopping = false
  size : s.world.buffer.size ≤ Buffered.maxSize
  socket : s.world.bus.socket? worker.socket =
    some ⟨worker.socket, s.publisher.endpoint, subscriptions, a.queue⟩
  queue : ∀ m ∈ a.queue, Posted s.world.chain m
  errands : ∀ errand ∈ worker.errands, Told s.world.chain errand
  busy : Busy T a.blocks worker a.left
  serves : ∀ side, Serves S T s.world worker side (a.followers side) (a.blocks side)
  arrives : worker.suppressed = false → s.world.chain.branch.length = T.summit → ∀ side,
    Homeward s.world.chain worker side (a.followers side) (a.blocks side) ∨
      (a.blocks side).length < T.summit ∧ Due side (top s.world.chain.branch) s.todo a.queue worker.errands

variable {a : Account}

theorem Due.imp {todo' : List Action} {queue' : List Frames} {errands errands' : List Errand}
    (h : Due side b todo queue errands)
    (htodo : .announce .attach side.id b false ∈ todo → Due side b todo' queue' errands')
    (hqueue : queue ⊆ queue')
    (herrands : ∀ n, .notified side.seat n ∈ errands → .notified side.seat n ∈ errands') :
    Due side b todo' queue' errands' := by
  cases h with
  | planned h => exact htodo h
  | sent m seq h htidy hheader => exact .sent m seq (hqueue h) htidy hheader
  | taken n h hkind hheader => exact .taken n (herrands n h) hkind hheader

/-- In which order the games hear of the start is of no matter. -/
theorem Attends.reorder (h : Attends S T a s worker) (hworker : worker.Reordered worker') :
    Attends S T a s worker' := by
  obtain ⟨errands, hstarts, hperm⟩ := hworker
  refine { h with
    errands := fun errand herrand => h.errands errand (hperm.mem_iff.mp herrand)
    busy := ?_
    serves := h.serves
    arrives := fun hsuppressed hlast side => ?_ }
  · have hbusy := h.busy
    generalize a.left = left at hbusy ⊢
    cases hbusy with
    | free h => exact .free h
    | asking side call h => exact .asking side call h
    | resting side due call h => exact .resting side due call h
  · refine (h.arrives hsuppressed hlast side).imp_right fun hdue => ⟨hdue.1, hdue.2.imp .planned ?_ ?_⟩
    · exact List.Subset.refl _
    · exact fun _ hmem => hperm.mem_iff.mpr hmem

/-- The worker finds the same chain, stores and queue. -/
theorem Attends.still (h : Attends S T a s worker) (hworld : s'.world = s.world)
    (hendpoint : s'.publisher.endpoint = s.publisher.endpoint)
    (hkept : ∀ kind game b, .announce kind game b false ∈ s.todo → .announce kind game b false ∈ s'.todo) :
    Attends S T a s' worker where
  staff := h.staff
  going := h.going
  size := by rw [hworld]; exact h.size
  socket := by rw [hworld, hendpoint]; exact h.socket
  queue := by rw [hworld]; exact h.queue
  errands := by rw [hworld]; exact h.errands
  busy := h.busy
  serves := by rw [hworld]; exact h.serves
  arrives hsuppressed hlast side := by
    rw [hworld] at hlast ⊢
    refine (h.arrives hsuppressed hlast side).imp_right fun hdue => ⟨hdue.1, hdue.2.imp ?_ ?_ ?_⟩
    · exact fun hmem => .planned (hkept _ _ _ hmem)
    · exact List.Subset.refl _
    · exact fun _ hmem => hmem

theorem Serves.same (h : Serves S T w worker side f bs) (w' : World ν τ)
    (hactivity : worker'.activity = worker.activity) (hchain : w'.chain = w.chain)
    (hheld : S.held side w' = S.held side w) : Serves S T w' worker' side f bs := by
  unfold Serves Engaged
  rw [hactivity, hchain, hheld]
  exact h

theorem Serves.mono (h : Serves S T w worker side f bs) (honward : Onward w.chain c) :
    Serves S T { w with chain := c } worker side f bs := by
  obtain ⟨v, hf, hknows⟩ := h
  have hheld : S.held side { w with chain := c } = S.held side w := by cases side <;> rfl
  refine ⟨v, ?_, fun call hcall => ?_⟩
  · rw [hheld]
    exact hf.mono honward.known
  · rw [hheld]
    exact (hknows call hcall).mono honward hf.rooted

theorem Attends.moved (h : Attends S T a s worker) (hworld : s'.world = { s.world with chain := c })
    (hendpoint : s'.publisher.endpoint = s.publisher.endpoint) (honward : Onward s.world.chain c)
    (hlast : c.branch.length = T.summit →
      (∀ side : Side, .announce .attach side.id (top c.branch) false ∈ s'.todo) ∧
        ∀ bs, Rooted s.world.chain.known bs → bs.length < T.summit) :
    Attends S T a s' worker where
  staff := h.staff
  going := h.going
  size := by rw [hworld]; exact h.size
  socket := by rw [hworld, hendpoint]; exact h.socket
  queue m hm := by
    rw [hworld]
    exact (h.queue m hm).mono honward
  errands errand herrand := by
    rw [hworld]
    exact (h.errands errand herrand).mono honward
  busy := h.busy
  serves side := by
    rw [hworld]
    exact (h.serves side).mono honward
  arrives _ hlength side := by
    rw [hworld] at hlength ⊢
    obtain ⟨hplanned, hlow⟩ := hlast hlength
    obtain ⟨v, hf, _⟩ := h.serves side
    exact .inr ⟨hlow _ hf.rooted, .planned (hplanned side)⟩

theorem Attends.published (h : Attends S T a s worker) {kind : EventKind} {side : Side} {b : Header}
    {mayDrop : Bool} {m : MinedBlock} {seq : UInt32} (hheader : m.header = b)
    (htidy : Json.Tidy Json.maxDepth (m.payload side.id)) (hreported : Reported s.world.chain kind b)
    (hworld : s'.world = { s.world with bus :=
      (s.world.bus.publish s.publisher.endpoint (Publisher.frames kind side.id (m.payload side.id) seq)).2 })
    (hendpoint : s'.publisher.endpoint = s.publisher.endpoint)
    (hkept : ∀ action ∈ s.todo, action ∈ s'.todo ∨ action = .announce kind side.id b mayDrop) :
    Attends S T { a with queue := a.queue ++ [Publisher.frames kind side.id (m.payload side.id) seq] } s'
      worker where
  staff := h.staff
  going := h.going
  size := by rw [hworld]; exact h.size
  socket := by
    rw [hworld, hendpoint]
    change Bus.socket? (Bus.publish _ _ _).2 _ = _
    rw [Bus.socket?_publish, h.socket]
    simp
  queue m' hm' := by
    rw [hworld]
    rcases List.mem_append.mp hm' with hold | hnew
    · exact h.queue m' hold
    · rw [List.mem_singleton.mp hnew]
      exact ⟨kind, side, m, seq, rfl, htidy, hheader ▸ hreported⟩
  errands := by rw [hworld]; exact h.errands
  busy := h.busy
  serves other := by
    rw [hworld]
    exact (h.serves other).same _ rfl rfl (by cases other <;> rfl)
  arrives hsuppressed hlength other := by
    rw [hworld] at hlength ⊢
    refine (h.arrives hsuppressed hlength other).imp_right fun hdue => ⟨hdue.1, hdue.2.imp ?_ ?_ ?_⟩
    · intro hmem
      rcases hkept _ hmem with hleft | heq
      · exact .planned hleft
      · obtain ⟨rfl, hid, hb, _⟩ := Action.announce.inj heq
        obtain rfl := Side.id_injective hid
        exact .sent m seq (List.mem_append_right _ List.mem_cons_self) htidy (hheader.trans hb.symm)
    · exact List.subset_append_left _ _
    · exact fun _ hmem => hmem

theorem Attends.act (h : Attends S T a s worker) (hplanned : Planned T s) (hacts : Acts T s s')
    (hdistinct : s'.world.chain.Distinct) : ∃ a', Attends S T a' s' worker := by
  cases hacts.effect with
  | nothing hworld hkept => exact ⟨a, h.still hworld hacts.endpoint hkept⟩
  | moved c hworld _ honward hlast =>
    rw [hworld] at hdistinct
    exact ⟨a, h.moved hworld hacts.endpoint (honward hdistinct) fun hlength =>
      ⟨(hlast hlength).1, (hlast hlength).2 hdistinct⟩⟩
  | published kind side b mayDrop m seq hannounced hm hhash hworld hkept =>
    rw [hworld] at hdistinct
    obtain ⟨hb, _, hreported⟩ := hplanned.announced _ _ _ _ hannounced
    have hheader := SimulatedChain.eq_of_hash hdistinct (List.mem_map_of_mem hm) hb hhash
    exact ⟨_, h.published hheader (MinedBlock.tidy_payload (hplanned.tidy m hm) side.id) (hreported hdistinct)
      hworld hacts.endpoint hkept⟩

/-- The worker after a step of a follower. -/
def Stores.resume (S : Stores ν τ) (worker : Worker (Hosted (World ν τ))) (now : Nat) (side : Side)
    (step : Follower × Follower.Next) : Worker (Hosted (World ν τ)) :=
  worker.progressed now side.seat (Hosted.step ⟨step.1, S.host side⟩ step)

variable {now n : Nat} {next : Follower.Next}

theorem Side.seat_injective {side' : Side} (h : side.seat = side'.seat) : side = side' :=
  Side.id_injective (congrArg Seat.game h)

theorem engaged_resume {other : Side} {call : Call}
    (h : Engaged (S.resume worker now side (f, next)) other call) :
    other = side ∧ (next = .asks call ∨ ∃ d, next = .rests d call) := by
  cases next with
  | asks call' =>
    rcases h with h | ⟨_, h⟩
    · obtain ⟨hseat, rfl⟩ := Activity.asking.inj h
      exact ⟨(Side.seat_injective hseat).symm, .inl rfl⟩
    · cases h
  | rests d call' =>
    rcases h with h | ⟨_, h⟩
    · cases h
    · obtain ⟨hseat, _, rfl⟩ := Activity.resting.inj h
      exact ⟨(Side.seat_injective hseat).symm, .inr ⟨d, rfl⟩⟩
  | returned result => rcases h with h | ⟨_, h⟩ <;> cases h
  | halted x => rcases h with h | ⟨_, h⟩ <;> cases h

theorem Busy.left_of_free {blocks : Side → List Header} (h : Busy T blocks worker n)
    (hfree : worker.activity = .free) : n = 0 := by
  cases h with
  | free _ => rfl
  | asking side call hasking => cases hfree.symm.trans hasking
  | resting side due call hresting => cases hfree.symm.trans hresting

theorem Busy.left_of_asking {blocks : Side → List Header} {call : Call} (h : Busy T blocks worker n)
    (hasking : worker.activity = .asking side.seat call) : n = 2 * rank T (blocks side).length call + 1 := by
  cases h with
  | free hfree => cases hasking.symm.trans hfree
  | asking side' call' hasking' =>
    obtain ⟨hseat, rfl⟩ := Activity.asking.inj (hasking.symm.trans hasking')
    rw [Side.seat_injective hseat]
  | resting side' due call' hresting => cases hasking.symm.trans hresting

theorem not_engaged_of_free (hfree : worker.activity = .free) (side : Side) (call : Call) :
    ¬Engaged worker side call := by
  rintro (h | ⟨_, h⟩) <;> cases hfree.symm.trans h

theorem Goes.engaged {P : Call → Prop} {Q : Prop} (h : Goes P Q next) :
    (∀ call, Engaged (S.resume worker now side (f, next)) side call → P call) ∧
    ((∀ call, ¬Engaged (S.resume worker now side (f, next)) side call) → Q) := by
  refine ⟨fun call hcall => ?_, fun hnone => ?_⟩
  · obtain ⟨_, rfl | ⟨d, rfl⟩⟩ := engaged_resume hcall <;> exact h
  · cases next with
    | asks call => exact absurd (.inl rfl) (hnone call)
    | rests d call => exact absurd (.inr ⟨_, rfl⟩) (hnone call)
    | returned result => exact h
    | halted x => exact h.elim

theorem Goes.busy (h : Goes (fun call => rank T bs.length call < n) True next) (S : Stores ν τ)
    (worker : Worker (Hosted (World ν τ))) (now : Nat) (side : Side) (f : Follower)
    (blocks : Side → List Header) :
    ∃ left, left ≤ 2 * n ∧ Busy T (Function.update blocks side bs)
      (S.resume worker now side (f, next)) left := by
  have hblocks : Function.update blocks side bs side = bs := Function.update_self side bs blocks
  cases next with
  | asks call =>
    change rank T bs.length call < n at h
    refine ⟨_, ?_, .asking side call rfl⟩
    rw [hblocks]
    omega
  | rests d call =>
    change rank T bs.length call < n at h
    refine ⟨_, ?_, .resting side _ call rfl⟩
    rw [hblocks]
    omega
  | returned result => exact ⟨0, Nat.zero_le _, .free rfl⟩
  | halted x => exact h.elim

/-- The steps of one follower leave the others where they are. -/
theorem Serves.aside {other : Side} (h : Serves S T w worker other f bs) (hapart : Apart S side w w')
    (hne : other ≠ side) (hnone : ∀ call, ¬Engaged worker' other call) :
    Serves S T w' worker' other f bs := by
  obtain ⟨v, hf, _⟩ := h
  refine ⟨v, ?_, fun call hcall => absurd hcall (hnone call)⟩
  rw [hapart.chain, hapart.held other hne]
  exact hf

theorem Homeward.aside {other : Side} (h : Homeward c worker other f bs)
    (hquiet : ∀ call, ¬Engaged worker other call) (hnone : ∀ call, ¬Engaged worker' other call) :
    Homeward c worker' other f bs :=
  ⟨fun call hcall => absurd hcall (hnone call), fun _ => h.2 hquiet⟩

/-- A follower goes on, and the worker with it. -/
theorem Attends.progress (h : Attends S T a s worker) {errands : List Errand}
    (herrands : errands ⊆ worker.errands)
    (hothers : ∀ other, other ≠ side → (∀ call, ¬Engaged worker other call) ∧
      ∀ n, .notified other.seat n ∈ worker.errands → .notified other.seat n ∈ errands)
    (hapart : Apart S side s.world w') {v : View}
    (hf : Follows side T s.world.chain.known (S.held side w') f v bs)
    (hgoes : Goes (fun call => Knows side T s.world.chain (S.held side w') f v bs call ∧
      rank T bs.length call < n) True next)
    (harrives : worker.suppressed = false → s.world.chain.branch.length = T.summit →
      Goes (Homing s.world.chain bs) (Settled s.world.chain f bs) next ∨
        bs.length < T.summit ∧ Due side (top s.world.chain.branch) s.todo a.queue errands) (now : Nat) :
    ∃ left, left ≤ 2 * n ∧ Attends S T
      ⟨Function.update a.followers side f, Function.update a.blocks side bs, a.queue, left⟩
      { s with world := w' } (S.resume { worker with errands } now side (f, next)) := by
  obtain ⟨left, hleft, hbusy⟩ :=
    (hgoes.imp fun _ hcall => hcall.2).busy S { worker with errands } now side f a.blocks
  obtain ⟨halike, hkept⟩ :=
    Worker.alike_progressed ({ worker with errands } : Worker (Hosted (World ν τ))) now
    side.seat (Hosted.step ⟨f, S.host side⟩ (f, next))
  have hnone : ∀ other, other ≠ side → ∀ call,
      ¬Engaged (S.resume { worker with errands } now side (f, next)) other call :=
    fun other hne call hcall => hne (engaged_resume hcall).1
  refine ⟨left, hleft, ?_, halike.stopping.trans h.going, hapart.size h.size, ?_, ?_, ?_, hbusy, ?_, ?_⟩
  · have hstaff : ({ worker with errands } : Worker (Hosted (World ν τ))).listeners =
      Simulation.staff S a.followers :=
      h.staff
    exact listeners_progressed hstaff side (f, next)
  · rw [show (S.resume { worker with errands } now side (f, next)).socket = worker.socket from halike.socket]
    change Bus.socket? w'.bus _ = _
    rw [hapart.bus]
    exact h.socket
  · intro m hm
    change Posted w'.chain m
    rw [hapart.chain]
    exact h.queue m hm
  · intro errand herrand
    change errand ∈ (Worker.progressed _ _ _ _).errands at herrand
    rw [hkept] at herrand
    change Told w'.chain errand
    rw [hapart.chain]
    exact h.errands errand (herrands herrand)
  · intro other
    by_cases hside : other = side
    · subst hside
      simp only [Function.update_self]
      refine ⟨v, ?_, fun call hcall => ?_⟩
      · rw [hapart.chain]
        exact hf
      · rw [hapart.chain]
        exact (hgoes.engaged.1 call hcall).1
    · simp only [Function.update_of_ne hside]
      exact (h.serves other).aside hapart hside (hnone other hside)
  · intro hsuppressed hlast other
    have hlast' : s.world.chain.branch.length = T.summit := by
      rw [← hapart.chain]
      exact hlast
    have hsuppressed' : worker.suppressed = false := halike.suppressed.symm.trans hsuppressed
    change Homeward w'.chain _ _ _ _ ∨ _ ∧ Due _ (top w'.chain.branch) s.todo a.queue
      (Worker.progressed _ _ _ _).errands
    rw [hkept, hapart.chain]
    by_cases hside : other = side
    · subst hside
      simp only [Function.update_self]
      refine (harrives hsuppressed' hlast').imp_left fun hhoming => ?_
      exact hhoming.engaged
    · simp only [Function.update_of_ne hside]
      obtain ⟨hquiet, hdue⟩ := hothers other hside
      refine (h.arrives hsuppressed' hlast' other).imp (fun hhome => ?_) fun hlow => ⟨hlow.1, ?_⟩
      · exact hhome.aside hquiet (hnone other hside)
      · exact hlow.2.imp .planned (List.Subset.refl _) hdue

/-- More than the steps that the worker can take before it has nothing to do. -/
def Account.load (T : Terms) (a : Account) (errands : List Errand) : Nat :=
  a.queue.length * (2 * rank T 0 (.target 1) + 4) + errands.length * (2 * rank T 0 (.target 1) + 3) + a.left

theorem Account.load_take (T : Terms) {a : Account} {m : Frames} {queue : List Frames}
    (hqueue : a.queue = m :: queue) {errands : List Errand} (hone : errands.length ≤ 1) :
    ({ a with queue } : Account).load T errands < a.load T [] := by
  have hcost := Nat.mul_le_mul_right (2 * rank T 0 (.target 1) + 3) hone
  rw [Nat.one_mul] at hcost
  unfold load
  rw [hqueue, List.length_cons, List.length_nil, Nat.add_mul queue.length, Nat.one_mul, Nat.zero_mul]
  simp only
  omega

theorem Attends.wakes (h : Attends S T a s worker) {seat : Seat} {due : Nat} {call : Call}
    (hactivity : worker.activity = .resting seat due call) :
    ∃ left < a.left, Attends S T { a with left } s { worker with activity := .asking seat call } := by
  have hsame : ∀ side call', Engaged { worker with activity := .asking seat call } side call' →
      Engaged worker side call' := by
    rintro side call' (hcall | ⟨_, hcall⟩)
    · obtain ⟨rfl, rfl⟩ := Activity.asking.inj hcall
      exact .inr ⟨due, hactivity⟩
    · cases hcall
  have hsome : ∀ side call', Engaged worker side call' →
      Engaged { worker with activity := .asking seat call } side call' := by
    rintro side call' (hcall | ⟨_, hcall⟩)
    · cases hactivity.symm.trans hcall
    · obtain ⟨rfl, _, rfl⟩ := Activity.resting.inj (hactivity.symm.trans hcall)
      exact .inl rfl
  have hbusy := h.busy
  generalize hleft : a.left = left at hbusy
  cases hbusy with
  | free hfree => cases hactivity.symm.trans hfree
  | asking side call' hasking => cases hactivity.symm.trans hasking
  | resting side due' call' hresting =>
    obtain ⟨rfl, rfl, rfl⟩ := Activity.resting.inj (hactivity.symm.trans hresting)
    refine ⟨2 * rank T (a.blocks side).length call + 1, Nat.lt_succ_self _, h.staff, h.going, h.size,
      h.socket, h.queue, h.errands, .asking side call rfl, fun other => ?_, fun hsuppressed hlast other => ?_⟩
    · obtain ⟨v, hf, hknows⟩ := h.serves other
      exact ⟨v, hf, fun call' hcall => hknows call' (hsame other call' hcall)⟩
    · refine (h.arrives hsuppressed hlast other).imp_left fun hhome => ?_
      exact ⟨fun call' hcall => hhome.1 call' (hsame other call' hcall),
        fun hnone => hhome.2 fun call' hcall => hnone call' (hsome other call' hcall)⟩

theorem Attends.asks (h : Attends S T a s worker) (hc : Charted T s.world.chain) {side : Side} {call : Call}
    (hactivity : worker.activity = .asking side.seat call)
    {reply : ((a.followers side).request call).Reply}
    (hreply : (S.host side).answer ((a.followers side).request call) s.world = (reply, w')) (now : Nat) :
    ∃ a', a'.load T worker.errands < a.load T worker.errands ∧ Attends S T a' { s with world := w' }
      (S.resume worker now side ((a.followers side).proceed call reply)) := by
  obtain ⟨v, hf, hknows⟩ := h.serves side
  obtain ⟨reply', w'', hreply', hapart, v', bs', hf', hgoes, harrives⟩ :=
    proceeds hc hf h.size (hknows call (.inl hactivity))
  obtain ⟨rfl, rfl⟩ := Prod.mk.inj (hreply.symm.trans hreply')
  have hleft := h.busy.left_of_asking hactivity
  have hothers : ∀ other, other ≠ side → ∀ call', ¬Engaged worker other call' := by
    rintro other hne call' (hcall | ⟨_, hcall⟩)
    · exact hne (Side.seat_injective (Activity.asking.inj (hactivity.symm.trans hcall)).1).symm
    · cases hactivity.symm.trans hcall
  have hnext : worker.suppressed = false → s.world.chain.branch.length = T.summit →
      Goes (Homing s.world.chain bs') (Settled s.world.chain ((a.followers side).proceed call reply).1 bs')
          ((a.followers side).proceed call reply).2 ∨
        bs'.length < T.summit ∧ Due side (top s.world.chain.branch) s.todo a.queue worker.errands := by
    intro hsuppressed hlast
    obtain ⟨hhoming, hlow⟩ := harrives hlast
    rcases h.arrives hsuppressed hlast side with hhome | ⟨hlt, hdue⟩
    · exact .inl (hhoming (hhome.1 call (.inl hactivity)))
    · exact (hlow hlt).symm.imp_right fun hlt' => ⟨hlt', hdue⟩
  obtain ⟨left, hle, hattends⟩ := h.progress (List.Subset.refl _)
    (fun other hne => ⟨hothers other hne, fun _ hmem => hmem⟩) hapart hf' hgoes hnext now
  refine ⟨_, ?_, hattends⟩
  unfold Account.load
  simp only
  omega

/-- A call of a follower begins. -/
theorem Attends.called (h : Attends S T a s worker) (hfree : worker.activity = .free) {errand : Errand}
    {errands : List Errand} (herrands : worker.errands = errand :: errands) {v : View}
    (hf : Follows side T s.world.chain.known (S.held side s.world) (a.followers side) v (a.blocks side))
    (hgoes : Goes (fun call =>
      Knows side T s.world.chain (S.held side s.world) (a.followers side) v (a.blocks side) call ∧
        rank T (a.blocks side).length call ≤ rank T 0 (.target 1)) True next)
    (hseat : ∀ other n, errand = .notified (Side.seat other) n → other = side)
    (harrives : s.world.chain.branch.length = T.summit →
      Settled s.world.chain (a.followers side) (a.blocks side) ∨ ((a.blocks side).length < T.summit ∧
        ∃ n, errand = .notified side.seat n ∧ n.kind = .attach ∧
          payloadHeader n.payload = .ok (top s.world.chain.branch)) →
      Goes (Homing s.world.chain (a.blocks side))
        (Settled s.world.chain (a.followers side) (a.blocks side)) next)
    (now : Nat) : ∃ a', a'.load T errands < a.load T worker.errands ∧
      Attends S T a' s (S.resume { worker with errands } now side (a.followers side, next)) := by
  have hidle := not_engaged_of_free hfree
  have hleft := h.busy.left_of_free hfree
  have hsubset : errands ⊆ worker.errands := by
    rw [herrands]
    exact List.subset_cons_self _ _
  have hnext : worker.suppressed = false → s.world.chain.branch.length = T.summit →
      Goes (Homing s.world.chain (a.blocks side))
        (Settled s.world.chain (a.followers side) (a.blocks side)) next ∨
        (a.blocks side).length < T.summit ∧ Due side (top s.world.chain.branch) s.todo a.queue errands := by
    intro hsuppressed hlast
    rcases h.arrives hsuppressed hlast side with hhome | ⟨hlt, hdue⟩
    · exact .inl (harrives hlast (.inl (hhome.2 (hidle side))))
    · cases hdue with
      | planned hmem => exact .inr ⟨hlt, .planned hmem⟩
      | sent m seq hmem htidy hheader => exact .inr ⟨hlt, .sent m seq hmem htidy hheader⟩
      | taken n hmem hkind hheader =>
        rw [herrands] at hmem
        rcases List.mem_cons.mp hmem with heq | hmem
        · exact .inl (harrives hlast (.inr ⟨hlt, n, heq.symm, hkind, hheader⟩))
        · exact .inr ⟨hlt, .taken n hmem hkind hheader⟩
  have hothers : ∀ other, other ≠ side → (∀ call, ¬Engaged worker other call) ∧
      ∀ n, .notified other.seat n ∈ worker.errands → .notified other.seat n ∈ errands := by
    refine fun other hne => ⟨hidle other, fun n hmem => ?_⟩
    rw [herrands] at hmem
    exact (List.mem_cons.mp hmem).resolve_left fun heq => hne (hseat other n heq.symm)
  have hrank := hgoes.imp fun call hcall => And.imp_right Nat.lt_succ_of_le hcall
  obtain ⟨left, hle, hattends⟩ := h.progress hsubset hothers (.refl S side s.world) hf hrank hnext now
  refine ⟨_, ?_, hattends⟩
  unfold Account.load
  rw [herrands, List.length_cons, hleft, Nat.add_mul errands.length, Nat.one_mul]
  simp only
  omega

theorem Attends.begins (h : Attends S T a s worker) (hc : Charted T s.world.chain)
    (hfree : worker.activity = .free)
    {errand : Errand} {errands : List Errand} (herrands : worker.errands = errand :: errands) (now : Nat) :
    ∃ a', a'.load T errands < a.load T worker.errands ∧
      Attends S T a' s (({ worker with errands } : Worker (Hosted (World ν τ))).runErrand now errand) := by
  have hstaff : ({ worker with errands } : Worker (Hosted (World ν τ))).listeners =
      Simulation.staff S a.followers := h.staff
  have htold := h.errands errand (by rw [herrands]; exact List.mem_cons_self)
  cases errand with
  | started seat =>
    obtain ⟨side, rfl⟩ := htold
    obtain ⟨v, hf, _⟩ := h.serves side
    have hrun : ({ worker with errands } : Worker (Hosted (World ν τ))).runErrand now (.started side.seat) =
        S.resume { worker with errands } now side (a.followers side).started := by
      simp only [Worker.runErrand, listener?_staff hstaff side]
      rfl
    rw [hrun, started_eq hf]
    refine h.called hfree herrands hf (begins_target .attach SimulatedChain.genesis).1 (fun other n heq => ?_)
      (fun _ _ => trivial) now
    cases heq
  | notified seat n =>
    obtain ⟨side, rfl, b, hheader, hreported⟩ := htold
    obtain ⟨v, hf, _⟩ := h.serves side
    have hrun : ({ worker with errands } : Worker (Hosted (World ν τ))).runErrand now
        (.notified side.seat n) = S.resume { worker with errands } now side ((a.followers side).notified n) := by
      simp only [Worker.runErrand, listener?_staff hstaff side]
      rfl
    obtain ⟨next, hnext, hgoes, harrives⟩ := begins_notified hc hf hheader hreported
    rw [hrun, hnext]
    refine h.called hfree herrands hf hgoes (fun other n' heq => ?_) (fun hlast hcase => ?_) now
    · exact (Side.seat_injective (Errand.notified.inj heq).1).symm
    · refine harrives hlast (hcase.imp_right fun hlow => ⟨hlow.1, ?_⟩)
      obtain ⟨_, n', heq, hkind, hheader'⟩ := hlow
      obtain ⟨_, rfl⟩ := Errand.notified.inj heq
      exact ⟨hkind, Except.ok.inj (hheader.symm.trans hheader')⟩

/-- What was due with the first message is due with its call. -/
theorem Due.take {other : Side} {kind : EventKind} {j : Json} {seq : UInt32} {queue : List Frames}
    {note : Notification} (h : Due other b todo (Publisher.frames kind side.id j seq :: queue) [])
    (hstaff : worker.listeners = Simulation.staff S fs)
    (hnotice : worker.notice? (Publisher.frames kind side.id j seq) = some note)
    (hgame : note.game = side.id) : Due other b todo queue [.notified side.seat note] := by
  cases h with
  | planned hmem => exact .planned hmem
  | sent m seq' hmem htidy hheader =>
    rcases List.mem_cons.mp hmem with heq | hmem
    · obtain ⟨note', hnotice', hgame', hkind', hpayload'⟩ := notice?_posted hstaff .attach other htidy seq'
      rw [heq, hnotice] at hnotice'
      obtain rfl := Option.some.inj hnotice'
      obtain rfl := Side.id_injective (hgame.symm.trans hgame')
      refine .taken note List.mem_cons_self hkind' ?_
      rw [hpayload', m.payloadHeader_payload, hheader]
    · exact .sent m seq' hmem htidy hheader
  | taken note' hmem _ _ => cases hmem

/-- A message is taken, and its call is due. -/
theorem Attends.takes (h : Attends S T a s worker) (hawaits : worker.Awaits) {m : Frames} {bus : Bus}
    (hpop : s.world.bus.pop? worker.socket = some (m, bus)) :
    ∃ a', a'.load T (if s.world.bus.accepts worker.socket m then worker.handle m else worker).errands <
        a.load T worker.errands ∧
      Attends S T a' { s with world := { s.world with bus } }
        (if s.world.bus.accepts worker.socket m then worker.handle m else worker) := by
  obtain ⟨sock, rest, hsock, hqueue, rfl⟩ := Bus.pop?_eq_some hpop
  obtain rfl := Option.some.inj (h.socket.symm.trans hsock)
  change a.queue = m :: rest at hqueue
  have hfree := Worker.activity_of_isFree hawaits.1
  have hidle := not_engaged_of_free hfree
  have hleft := h.busy.left_of_free hfree
  obtain ⟨kind, side, b, seq, rfl, htidy, hreported⟩ := h.queue m (by rw [hqueue]; exact List.mem_cons_self)
  have haccepts : s.world.bus.accepts worker.socket
      (Publisher.frames kind side.id (b.payload side.id) seq) = true := by
    rw [Bus.accepts, h.socket]
    exact accepts_posted rfl kind side (b.payload side.id) seq
  obtain ⟨n, hnotice, hgame, hkind, hpayload⟩ := notice?_posted h.staff kind side htidy seq
  have hround : worker.round n = [.notified side.seat n] := by
    unfold Worker.round
    rw [hgame, h.staff, lookup_staff]
    rfl
  rw [if_pos haccepts, Worker.handle_of_notice hnotice, hround]
  refine ⟨{ a with queue := rest }, ?_, h.staff, h.going, h.size, ?_, fun m hm => ?_,
    fun errand herrand => ?_, ?_, fun other => ?_, fun hsuppressed hlast other => ?_⟩
  · rw [hawaits.2.1]
    refine Account.load_take T hqueue ?_
    change (if worker.suppressed then [] else [Errand.notified side.seat n]).length ≤ 1
    split <;> simp
  · have hsocket := Bus.socket?_modify s.world.bus worker.socket worker.socket
      (fun sock => { sock with queue := rest }) fun _ => rfl
    rw [if_pos rfl, h.socket] at hsocket
    exact hsocket
  · exact h.queue m (by rw [hqueue]; exact List.mem_cons_of_mem _ hm)
  · change errand ∈ (if worker.suppressed then [] else [Errand.notified side.seat n]) at herrand
    cases hsuppressed : worker.suppressed with
    | true =>
      rw [hsuppressed] at herrand
      cases herrand
    | false =>
      rw [hsuppressed] at herrand
      obtain rfl := List.mem_singleton.mp herrand
      exact ⟨side, rfl, b.header, by rw [hpayload]; exact b.payloadHeader_payload side.id, hkind ▸ hreported⟩
  · rw [hleft]
    exact .free hfree
  · refine (h.serves other).same _ rfl rfl ?_
    cases other <;> rfl
  · change worker.suppressed = false at hsuppressed
    refine (h.arrives hsuppressed hlast other).imp (fun hhome => ⟨?_, fun _ => hhome.2 (hidle other)⟩)
      fun hlow => ⟨hlow.1, ?_⟩
    · exact fun call hcall => absurd hcall (hidle other call)
    · change Due other _ _ rest (if worker.suppressed then [] else [Errand.notified side.seat n])
      rw [hsuppressed]
      have hdue := hlow.2
      rw [hqueue, hawaits.2.1] at hdue
      exact hdue.take h.staff hnotice hgame

/-- A step of the worker leaves it less to do. -/
theorem Attends.work (h : Attends S T a s worker) (hc : Charted T s.world.chain)
    (hwork : Work S a.followers now worker s.world worker' w') :
    ∃ a', a'.load T worker'.errands < a.load T worker.errands ∧
      Attends S T a' { s with world := w' } worker' := by
  cases hwork with
  | wakes seat due call hactivity =>
    obtain ⟨left, hlt, hattends⟩ := h.wakes hactivity
    exact ⟨_, Nat.add_lt_add_left hlt _, hattends⟩
  | asks side call reply w' hactivity hreply =>
    obtain ⟨a', hlt, hattends⟩ := h.asks hc hactivity hreply now
    refine ⟨a', ?_, hattends⟩
    obtain ⟨_, herrands⟩ := Worker.alike_progressed worker now side.seat
      (Hosted.step ⟨a.followers side, S.host side⟩ ((a.followers side).proceed call reply))
    rw [herrands]
    exact hlt
  | drops seat call hactivity hseat =>
    have hbusy := h.busy
    generalize a.left = left at hbusy
    cases hbusy with
    | free hfree => cases hactivity.symm.trans hfree
    | asking side call' hasking =>
      exact absurd (Activity.asking.inj (hactivity.symm.trans hasking)).1 (hseat side)
    | resting side due call' hresting => cases hactivity.symm.trans hresting
  | begins errand errands hactivity herrands =>
    obtain ⟨a', hlt, hattends⟩ := h.begins hc hactivity herrands now
    refine ⟨a', ?_, hattends⟩
    rw [(Worker.alike_runErrand _ now errand).2]
    exact hlt
  | exits hstopping => cases h.going.symm.trans hstopping
  | takes m bus hawaits hpop => exact h.takes hawaits hpop

end Simulation

end ChainFollower
