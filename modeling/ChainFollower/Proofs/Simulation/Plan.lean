import ChainFollower.Proofs.Simulation.Walk

namespace ChainFollower

namespace Simulation

open SimulatedChain (Rooted top)

variable {ν τ : Type} {T : Terms} {s s' : State ν τ} {c : SimulatedChain} {b : Header} {action : Action}
  {todo : List Action}

def Action.isAnnouncement : Action → Bool
  | .announce .. => true
  | _ => false

/-- What is left to do to the chain. -/
def agenda (todo : List Action) : List Action := todo.filter fun action => !action.isAnnouncement

/-- Where the chain has `height` blocks above the genesis block and no block was ever higher than `highest`,
this is left to do. -/
inductive Phase (T : Terms) (agenda : List Action) (height highest : Nat) : Prop
  | round (hagenda : agenda = [.rounds (height + 1)]) (hhighest : highest = height) (h : height < T.summit)
  /-- In round `r + 1`, which replaces `depth` blocks; one more of them has to go. -/
  | detaching (r left depth : Nat)
      (hagenda : agenda = List.replicate (left + 1) .unmine ++
        (List.replicate (depth + 1) (.mine (r + 1) true) ++
        [.rest, .rounds (r + 2)]))
      (hhighest : highest = r) (h : r + 1 < T.summit) (hdepth : depth ≤ T.depth) (hlow : depth ≤ r)
      (hleft : left < depth) (hheight : height + depth = r + (left + 1))
  | mining (r left : Nat)
      (hagenda : agenda = List.replicate left (.mine (r + 1) true) ++ [.rest, .rounds (r + 2)])
      (hhighest : highest = r + 1) (h : r + 1 < T.summit) (hheight : height + left = r + 1)
  | last (hagenda : agenda = [.mine T.summit false]) (hhighest : highest = height) (h : height + 1 = T.summit)
  | ended (hagenda : agenda = []) (hhighest : highest = T.summit) (hheight : height = T.summit)

/-- A simulation on its way. What it says about blocks holds as long as no two have one hash. -/
structure Planned (T : Terms) (s : State ν τ) : Prop where
  blocks : s.config.blocks.toNat + 1 = T.summit
  depth : s.config.reorgDepth.toNat = T.depth
  summit_le : T.summit ≤ 2 ^ 60
  grown : s.world.chain.Grown
  tidy : ∀ m ∈ s.world.chain.blocks, ∀ move ∈ m.moves, Json.Tidy (Json.maxDepth - 2) move.2
  phase : ∃ highest, Phase T (agenda s.todo) s.world.chain.branch.length highest ∧
    (s.world.chain.Distinct → ∀ bs, Rooted s.world.chain.known bs → bs.length ≤ highest)
  charted : s.world.chain.Distinct → Charted T s.world.chain
  announced : ∀ kind game b mayDrop, .announce kind game b mayDrop ∈ s.todo → b ∈ s.world.chain.known ∧
    (∃ side : Side, game = side.id) ∧ (s.world.chain.Distinct → Reported s.world.chain kind b)

theorem Phase.below {agenda : List Action} {height highest : Nat} (h : Phase T agenda height highest)
    (hleft : agenda ≠ []) : height < T.summit ∧ highest < T.summit := by
  cases h with
  | ended hagenda => exact absurd hagenda hleft
  | round _ hhighest h => omega
  | detaching r left depth _ hhighest h hdepth hlow hleft hheight => omega
  | mining r left _ hhighest h hheight => omega
  | last _ hhighest h => omega

theorem Phase.ended_of_nil {height highest : Nat} (h : Phase T [] height highest) : height = T.summit := by
  cases h with
  | ended _ _ hheight => exact hheight
  | round hagenda => cases hagenda
  | detaching r left depth hagenda => cases hagenda
  | mining r left hagenda => cases (List.nil_eq_append_iff.mp hagenda).2
  | last hagenda => cases hagenda

theorem Planned.height_of_nil (h : Planned T s) (htodo : s.todo = []) :
    s.world.chain.tip.height.toNat = s.config.blocks.toNat + 1 := by
  obtain ⟨highest, hphase, _⟩ := h.phase
  rw [htodo] at hphase
  rw [h.blocks, ← hphase.ended_of_nil]
  exact h.grown.branch.height_top

theorem tidy_moves {round : Nat} (h : round < UInt64.size) :
    ∀ move ∈ moves round, Json.Tidy (Json.maxDepth - 2) move.2 := by
  have hnumber : Json.Tidy (Json.maxDepth - 3) (.num (.int round)) := by
    refine ⟨?_, ?_⟩ <;> omega
  have hname : ["name", "value"].Pairwise (· < ·) := by decide
  have hbonus : ["bonus", "round"].Pairwise (· < ·) := by decide
  have hround : ["round"].Pairwise (· < ·) := by decide
  intro move hmove
  rcases List.mem_cons.mp hmove with rfl | hmove
  · exact ⟨hname, trivial, trivial, trivial⟩
  · rcases List.mem_cons.mp hmove with rfl | hmove
    · exact ⟨hround, hnumber, trivial⟩
    · rw [List.mem_singleton.mp hmove]
      exact ⟨hbonus, trivial, hnumber, trivial⟩

theorem charted_attach (hc : Charted T c) {highest : Nat}
    (hmost : ∀ bs, Rooted c.known bs → bs.length ≤ highest)
    (hhighest : highest < T.summit) (hlength : c.branch.length < T.summit) {moves : List (String × Json)}
    (hdistinct : (c.attach moves).2.Distinct) :
    Charted T (c.attach moves).2 ∧ ∀ bs, Rooted (c.attach moves).2.known bs →
      bs = (c.attach moves).2.branch ∨ bs.length ≤ highest := by
  have hsize : c.branch.length + 1 < UInt64.size :=
    Nat.lt_of_le_of_lt (Nat.le_trans hlength hc.summit_le) (by decide)
  have hcases : ∀ bs, Rooted (c.attach moves).2.known bs →
      bs = (c.attach moves).2.branch ∨ Rooted c.known bs :=
    fun bs hbs => hc.grown.rooted_of_attach hsize hdistinct hbs
  refine ⟨⟨hc.grown.attach hsize moves, hdistinct, ?_, ?_, ?_, hc.summit_le⟩,
    fun bs hbs => (hcases bs hbs).imp_right (hmost bs)⟩
  · intro bs hbs
    rcases hcases bs hbs with rfl | hold
    · exact List.drop_suffix _ _
    · exact (hc.deep bs hold).trans (List.suffix_cons _ _)
  · intro bs hbs
    rcases hcases bs hbs with rfl | hold
    · exact hlength
    · exact hc.most bs hold
  · intro _ bs hbs hbslength
    rcases hcases bs hbs with rfl | hold
    · rfl
    · have hle := hmost bs hold
      omega

theorem charted_detach (hc : Charted T c) {highest : Nat}
    (hmost : ∀ bs, Rooted c.known bs → bs.length ≤ highest)
    (hhighest : highest < T.summit) (hdepth : highest < c.branch.length + T.depth) {c' : SimulatedChain}
    (hdetach : c.detach = .ok (b, c')) : Charted T c' := by
  obtain ⟨hbranch, _⟩ := SimulatedChain.detach_eq_ok hdetach
  have hknown := SimulatedChain.known_detach hdetach
  have hdistinct : c'.Distinct := by
    unfold SimulatedChain.Distinct
    rw [hknown]
    exact hc.distinct
  refine ⟨hc.grown.detach hdetach, hdistinct, ?_, ?_, ?_, hc.summit_le⟩
  · intro bs hbs
    rw [hknown] at hbs
    have hle := hmost bs hbs
    have hdeep := hc.deep bs hbs
    rw [hbranch] at hdeep hdepth
    rcases List.suffix_cons_iff.mp hdeep with hall | hsuffix
    · have hlength := congrArg List.length hall
      rw [List.length_drop] at hlength
      rw [List.length_cons] at hlength hdepth
      omega
    · exact hsuffix
  · rw [hknown]
    exact hc.most
  · intro hlast bs hbs hbslength
    rw [hknown] at hbs
    have hle := hmost bs hbs
    omega

/-- What an action of the simulation does to what it shares with the daemon. -/
inductive Effect (T : Terms) (s s' : State ν τ) : Prop
  | nothing (hworld : s'.world = s.world)
      (hkept : ∀ kind game b, .announce kind game b false ∈ s.todo → .announce kind game b false ∈ s'.todo)
  /-- Where the chain comes to its last height, the block there is announced for sure. -/
  | moved (c : SimulatedChain) (hworld : s'.world = { s.world with chain := c })
      (hdistinct : c.Distinct → s.world.chain.Distinct) (honward : c.Distinct → Onward s.world.chain c)
      (hlast : c.branch.length = T.summit →
        (∀ side : Side, .announce .attach side.id (top c.branch) false ∈ s'.todo) ∧
          (c.Distinct → ∀ bs, Rooted s.world.chain.known bs → bs.length < T.summit))
  | published (kind : EventKind) (side : Side) (b : Header) (mayDrop : Bool) (m : MinedBlock) (seq : UInt32)
      (hannounced : .announce kind side.id b mayDrop ∈ s.todo)
      (hm : m ∈ s.world.chain.blocks) (hhash : m.header.hash = b.hash)
      (hworld : s'.world = { s.world with bus :=
        (s.world.bus.publish s.publisher.endpoint
          (Publisher.frames kind side.id (m.payload side.id) seq)).2 })
      (hkept : ∀ action ∈ s.todo, action ∈ s'.todo ∨ action = .announce kind side.id b mayDrop)

/-- More than the actions that come of this one, itself included. -/
def effort (T : Terms) : Action → Nat
  | .rounds round => (T.summit - round) * (6 * T.depth + 5) + 4
  | .mine .. => 3
  | .unmine => 3
  | .announce .. => 1
  | .rest => 1

def toil (T : Terms) (todo : List Action) : Nat := (todo.map (effort T)).sum

/-- An action that goes well, with less left to do after it. -/
structure Acts (T : Terms) (s s' : State ν τ) : Prop where
  config : s'.config = s.config
  endpoint : s'.publisher.endpoint = s.publisher.endpoint
  toil : toil T s'.todo < toil T s.todo
  planned : Planned T s'
  effect : Effect T s s'

theorem toil_cons (T : Terms) (action : Action) (todo : List Action) :
    toil T (action :: todo) = effort T action + toil T todo := by
  simp [toil]

theorem toil_append (T : Terms) (todo todo' : List Action) :
    toil T (todo ++ todo') = toil T todo + toil T todo' := by
  simp [toil]

theorem toil_replicate (T : Terms) (n : Nat) (action : Action) :
    toil T (List.replicate n action) = n * effort T action := by
  simp [toil]

/-- What a round is made of. -/
theorem schedule_eq (h : Planned T s) {r : Nat} (hr : r < T.summit)
    (hheight : s.world.chain.branch.length = r) :
    (r + 1 = T.summit ∧ s.schedule (r + 1) = [.mine T.summit false]) ∨
    (r + 1 < T.summit ∧ ∃ depth, depth ≤ T.depth ∧ depth ≤ r ∧ s.schedule (r + 1) =
      List.replicate depth .unmine ++ (List.replicate (depth + 1) (.mine (r + 1) true) ++
        [.rest, .rounds (r + 2)])) := by
  have hblocks := h.blocks
  have htip : s.world.chain.tip.height.toNat = r := h.grown.branch.height_top.trans hheight
  unfold State.schedule
  simp only
  split
  · exact .inl ⟨by omega, by rw [hblocks]⟩
  · split
    · refine .inr ⟨by omega, min T.depth r, Nat.min_le_left _ _, Nat.min_le_right _ _, ?_⟩
      rw [h.depth, htip, List.append_assoc]
    · exact .inr ⟨by omega, 0, Nat.zero_le _, Nat.zero_le _, rfl⟩

theorem toil_schedule (h : Planned T s) {r : Nat} (hr : r < T.summit)
    (hheight : s.world.chain.branch.length = r) :
    toil T (s.schedule (r + 1)) < effort T (.rounds (r + 1)) := by
  obtain ⟨_, heq⟩ | ⟨hnext, depth, hdepth, _, heq⟩ := schedule_eq h hr hheight
  · rw [heq]
    change 3 < (T.summit - (r + 1)) * (6 * T.depth + 5) + 4
    omega
  · have hround : T.summit - (r + 1) = T.summit - (r + 2) + 1 := by omega
    rw [heq, toil_append, toil_append, toil_replicate, toil_replicate]
    change depth * 3 + ((depth + 1) * 3 + (1 + ((T.summit - (r + 2)) * (6 * T.depth + 5) + 4 + 0))) <
      (T.summit - (r + 1)) * (6 * T.depth + 5) + 4
    rw [hround, Nat.add_mul (T.summit - (r + 2)), Nat.one_mul]
    omega

theorem agenda_append (todo todo' : List Action) : agenda (todo ++ todo') = agenda todo ++ agenda todo' :=
  List.filter_append _ _

theorem agenda_replicate (n : Nat) {action : Action} (h : action.isAnnouncement = false) :
    agenda (List.replicate n action) = List.replicate n action :=
  List.filter_replicate_of_pos (by rw [h]; rfl)

theorem Phase.schedule (h : Planned T s) {r : Nat} (hr : r < T.summit)
    (hheight : s.world.chain.branch.length = r) :
    ∃ highest, r ≤ highest ∧ Phase T (agenda (s.schedule (r + 1))) r highest := by
  obtain ⟨hlast, heq⟩ | ⟨hnext, depth, hdepth, hlow, heq⟩ := schedule_eq h hr hheight
  · exact ⟨r, Nat.le_refl r, .last (by rw [heq]; rfl) rfl hlast⟩
  · have hagenda : agenda (s.schedule (r + 1)) = List.replicate depth .unmine ++
        (List.replicate (depth + 1) (.mine (r + 1) true) ++ [.rest, .rounds (r + 2)]) := by
      rw [heq, agenda_append, agenda_append, agenda_replicate _ rfl, agenda_replicate _ rfl]
      rfl
    cases depth with
    | zero => exact ⟨r + 1, Nat.le_succ r, .mining r 1 hagenda rfl hnext rfl⟩
    | succ left =>
      exact ⟨r, Nat.le_refl r,
        .detaching r left (left + 1) hagenda rfl hnext hdepth hlow (Nat.lt_succ_self left) rfl⟩

theorem Phase.rounds {round height highest : Nat} {rest : List Action}
    (h : Phase T (.rounds round :: rest) height highest) :
    round = height + 1 ∧ rest = [] ∧ highest = height ∧ height < T.summit := by
  cases h with
  | round hagenda hhighest h =>
    cases hagenda
    exact ⟨rfl, rfl, hhighest, h⟩
  | detaching r left depth hagenda => cases hagenda
  | mining r left hagenda => cases left <;> cases hagenda
  | last hagenda => cases hagenda
  | ended hagenda => cases hagenda

theorem Phase.rest {height highest : Nat} {rest : List Action} (h : Phase T (.rest :: rest) height highest) :
    Phase T rest height highest := by
  cases h with
  | round hagenda => cases hagenda
  | detaching r left depth hagenda => cases hagenda
  | mining r left hagenda hhighest h hheight =>
    cases left with
    | zero =>
      obtain rfl : height = r + 1 := hheight
      cases hagenda
      exact .round rfl hhighest h
    | succ left => cases hagenda
  | last hagenda => cases hagenda
  | ended hagenda => cases hagenda

theorem Phase.unmine {height highest : Nat} {rest : List Action}
    (h : Phase T (.unmine :: rest) (height + 1) highest) :
    highest < T.summit ∧ highest < height + 1 + T.depth ∧
      ∃ highest', highest ≤ highest' ∧ Phase T rest height highest' := by
  cases h with
  | round hagenda => cases hagenda
  | detaching r left depth hagenda hhighest h hdepth hlow hleft hheight =>
    cases hagenda
    refine ⟨by omega, by omega, ?_⟩
    cases left with
    | zero => exact ⟨r + 1, by omega, .mining r (depth + 1) rfl rfl h (by omega)⟩
    | succ left => exact ⟨r, by omega, .detaching r left depth rfl rfl h hdepth hlow (by omega) (by omega)⟩
  | mining r left hagenda => cases left <;> cases hagenda
  | last hagenda => cases hagenda
  | ended hagenda => cases hagenda

theorem Phase.ne_unmine {highest : Nat} {rest : List Action} : ¬Phase T (.unmine :: rest) 0 highest := by
  intro h
  cases h with
  | round hagenda => cases hagenda
  | detaching r left depth hagenda hhighest h hdepth hlow hleft hheight => omega
  | mining r left hagenda => cases left <;> cases hagenda
  | last hagenda => cases hagenda
  | ended hagenda => cases hagenda

theorem Phase.mine {round height highest : Nat} {mayDrop : Bool} {rest : List Action}
    (h : Phase T (.mine round mayDrop :: rest) height highest) :
    round ≤ T.summit ∧ (height + 1 = T.summit → mayDrop = false) ∧
      ∃ highest', highest ≤ highest' ∧ height < highest' ∧ Phase T rest (height + 1) highest' := by
  cases h with
  | round hagenda => cases hagenda
  | detaching r left depth hagenda => cases hagenda
  | mining r left hagenda hhighest h hheight =>
    cases left with
    | zero => cases hagenda
    | succ left =>
      cases hagenda
      exact ⟨by omega, by omega, r + 1, by omega, by omega, .mining r left rfl rfl h (by omega)⟩
  | last hagenda hhighest h =>
    cases hagenda
    exact ⟨Nat.le_refl _, fun _ => rfl, T.summit, by omega, by omega, .ended rfl rfl h⟩
  | ended hagenda => cases hagenda

theorem agenda_of_announcement (kind : EventKind) (game : String) (b : Header) (mayDrop : Bool) :
    agenda (.announce kind game b mayDrop :: todo) = agenda todo := rfl

theorem mem_announcements {kind kind' : EventKind} {game : String} {b b' : Header} {mayDrop mayDrop' : Bool} :
    .announce kind' game b' mayDrop' ∈ announcements kind b mayDrop ↔
      kind' = kind ∧ (∃ side : Side, game = side.id) ∧ b' = b ∧ mayDrop' = mayDrop := by
  constructor
  · intro h
    obtain ⟨g, hg, heq⟩ := List.mem_map.mp h
    obtain ⟨rfl, rfl, rfl, rfl⟩ := Action.announce.inj heq
    refine ⟨rfl, ?_, rfl, rfl⟩
    rcases List.mem_cons.mp hg with rfl | hg
    · exact ⟨.names, rfl⟩
    · exact ⟨.tally, List.mem_singleton.mp hg⟩
  · rintro ⟨rfl, ⟨side, rfl⟩, rfl, rfl⟩
    refine List.mem_map.mpr ⟨side.id, ?_, rfl⟩
    cases side
    · exact List.mem_cons_self
    · exact List.mem_cons_of_mem _ List.mem_cons_self

/-- The chain is as it was. -/
theorem Planned.still (h : Planned T s) (hconfig : s'.config = s.config)
    (hchain : s'.world.chain = s.world.chain)
    {highest : Nat} (hphase : Phase T (agenda s'.todo) s.world.chain.branch.length highest)
    (hmost : s.world.chain.Distinct → ∀ bs, Rooted s.world.chain.known bs → bs.length ≤ highest)
    (hannounced : ∀ kind game b mayDrop, .announce kind game b mayDrop ∈ s'.todo →
      .announce kind game b mayDrop ∈ s.todo) : Planned T s' where
  blocks := by rw [hconfig]; exact h.blocks
  depth := by rw [hconfig]; exact h.depth
  summit_le := h.summit_le
  grown := by rw [hchain]; exact h.grown
  tidy := by rw [hchain]; exact h.tidy
  phase := by rw [hchain]; exact ⟨highest, hphase, hmost⟩
  charted := by rw [hchain]; exact h.charted
  announced kind game b mayDrop hmem := by
    rw [hchain]
    exact h.announced kind game b mayDrop (hannounced kind game b mayDrop hmem)

theorem acts_rounds (h : Planned T s) {round : Nat} (htodo : s.todo = .rounds round :: todo) :
    Acts T s { s with todo := s.schedule round ++ todo } := by
  obtain ⟨highest, hphase, hmost⟩ := h.phase
  have hagenda : agenda s.todo = .rounds round :: agenda todo := by rw [htodo]; rfl
  rw [hagenda] at hphase
  obtain ⟨rfl, hnil, rfl, hlt⟩ := hphase.rounds
  obtain ⟨highest, hle, hphase⟩ := Phase.schedule h hlt rfl
  refine ⟨rfl, rfl, ?_,
    h.still rfl rfl ?_ (fun hdistinct bs hbs => Nat.le_trans (hmost hdistinct bs hbs) hle) ?_,
    .nothing rfl fun kind game b hmem => ?_⟩
  · rw [htodo, toil_append, toil_cons]
    exact Nat.add_lt_add_right (toil_schedule h hlt rfl) _
  · rw [agenda_append, hnil, List.append_nil]
    exact hphase
  · intro kind game b mayDrop hmem
    rw [htodo]
    rcases List.mem_append.mp hmem with hmem | hmem
    · obtain ⟨_, heq⟩ | ⟨_, depth, _, _, heq⟩ := schedule_eq h hlt rfl
      · rw [heq] at hmem
        cases List.mem_singleton.mp hmem
      · rw [heq] at hmem
        simp [List.mem_replicate] at hmem
    · exact List.mem_cons_of_mem _ hmem
  · rw [htodo] at hmem
    exact List.mem_append_right _ ((List.mem_cons.mp hmem).resolve_left (by simp))

theorem acts_rest (h : Planned T s) (htodo : s.todo = .rest :: todo) : Acts T s { s with todo } := by
  obtain ⟨highest, hphase, hmost⟩ := h.phase
  have hagenda : agenda s.todo = .rest :: agenda todo := by rw [htodo]; rfl
  rw [hagenda] at hphase
  refine ⟨rfl, rfl, ?_, h.still rfl rfl hphase.rest hmost ?_, .nothing rfl ?_⟩
  · rw [htodo, toil_cons]
    exact Nat.lt_add_of_pos_left Nat.zero_lt_one
  · intro kind game b mayDrop hmem
    rw [htodo]
    exact List.mem_cons_of_mem _ hmem
  · intro kind game b hmem
    rw [htodo] at hmem
    exact (List.mem_cons.mp hmem).resolve_left (by simp)

theorem acts_announce (h : Planned T s) {kind : EventKind} {game : String} {mayDrop : Bool}
    (htodo : s.todo = .announce kind game b mayDrop :: todo) :
    ∃ s', { s with todo }.announce kind game b mayDrop = .ok s' ∧ Acts T s s' := by
  obtain ⟨highest, hphase, hmost⟩ := h.phase
  rw [htodo, agenda_of_announcement] at hphase
  have hkept : ∀ kind game b mayDrop, .announce kind game b mayDrop ∈ todo →
      .announce kind game b mayDrop ∈ s.todo := by
    intro kind game b mayDrop hmem
    rw [htodo]
    exact List.mem_cons_of_mem _ hmem
  have hhead : .announce kind game b mayDrop ∈ s.todo := by
    rw [htodo]
    exact List.mem_cons_self
  have htoil : toil T todo < toil T s.todo := by
    rw [htodo, toil_cons]
    exact Nat.lt_add_of_pos_left Nat.zero_lt_one
  unfold State.announce
  simp only
  split
  · next hdrop =>
    refine ⟨_, rfl, rfl, rfl, htoil, h.still rfl rfl hphase hmost hkept, .nothing rfl ?_⟩
    intro kind' game' b' hmem
    rw [htodo] at hmem
    refine (List.mem_cons.mp hmem).resolve_left fun heq => ?_
    cases (Action.announce.inj heq).2.2.2.trans hdrop.1
  · obtain ⟨hb, ⟨side, rfl⟩, _⟩ := h.announced _ _ _ _ hhead
    obtain ⟨m, hm, hhash, hfind⟩ := SimulatedChain.exists_block hb
    have hpayload : s.world.chain.payload side.id b.hash = .ok (m.payload side.id) := by
      rw [SimulatedChain.payload, hfind]
    rw [hpayload]
    refine ⟨_, rfl, rfl, rfl, htoil, h.still rfl rfl hphase hmost hkept,
      .published kind side b mayDrop m _ hhead hm hhash rfl fun action haction => ?_⟩
    rw [htodo] at haction
    exact (List.mem_cons.mp haction).symm

/-- What is announced on a chain that goes on is reported there, with the block that is new to say. -/
theorem Planned.announced_append (h : Planned T s) {chain : SimulatedChain} {kind : EventKind}
    {b : Header} {mayDrop : Bool} (htodo : s.todo = action :: todo)
    (hknown : s.world.chain.known ⊆ chain.known) (hb : b ∈ chain.known)
    (honward : chain.Distinct → s.world.chain.Distinct ∧ Onward s.world.chain chain)
    (hreported : chain.Distinct → Reported chain kind b) (kind' : EventKind) (game : String)
    (b' : Header) (mayDrop' : Bool)
    (hmem : .announce kind' game b' mayDrop' ∈ announcements kind b mayDrop ++ todo) :
    b' ∈ chain.known ∧ (∃ side : Side, game = side.id) ∧
      (chain.Distinct → Reported chain kind' b') := by
  rcases List.mem_append.mp hmem with hnew | hold
  · obtain ⟨rfl, hside, rfl, rfl⟩ := mem_announcements.mp hnew
    exact ⟨hb, hside, hreported⟩
  · have hmem' : .announce kind' game b' mayDrop' ∈ s.todo := by
      rw [htodo]
      exact List.mem_cons_of_mem _ hold
    obtain ⟨hb', hside, hreported'⟩ := h.announced kind' game b' mayDrop' hmem'
    exact ⟨hknown hb', hside, fun hd => (hreported' (honward hd).1).mono (honward hd).2⟩

theorem acts_mine (h : Planned T s) {round : Nat} {mayDrop : Bool}
    (htodo : s.todo = .mine round mayDrop :: todo) :
    Acts T s { s with
      world := { s.world with chain := (s.world.chain.attach (moves round)).2 }
      todo := announcements .attach (s.world.chain.attach (moves round)).1 mayDrop ++ todo } := by
  obtain ⟨highest, hphase, hmost⟩ := h.phase
  have hagenda : agenda s.todo = .mine round mayDrop :: agenda todo := by rw [htodo]; rfl
  rw [hagenda] at hphase
  obtain ⟨hlt, hhighest⟩ := hphase.below (List.cons_ne_nil _ _)
  obtain ⟨hround, hlast, highest', hle, hlt', hphase'⟩ := hphase.mine
  have hsummit : T.summit < UInt64.size := Nat.lt_of_le_of_lt h.summit_le (by decide)
  have hgrown := h.grown.attach (Nat.lt_of_le_of_lt hlt hsummit) (moves round)
  have hdistinct (hd : (s.world.chain.attach (moves round)).2.Distinct) : s.world.chain.Distinct :=
    hd.of_attach
  have hcharted := fun hd =>
    charted_attach (h.charted (hdistinct hd)) (hmost (hdistinct hd)) hhighest hlt hd
  refine ⟨rfl, rfl, ?_,
    ⟨h.blocks, h.depth, h.summit_le, hgrown, ?_, ⟨highest', hphase', ?_⟩, fun hd => (hcharted hd).1, ?_⟩,
    .moved _ rfl hdistinct onward_attach ?_⟩
  · rw [htodo, toil_append, toil_cons]
    exact Nat.add_lt_add_right (show 2 < 3 by decide) _
  · intro m hm
    rcases List.mem_cons.mp hm with rfl | hm
    · exact tidy_moves (Nat.lt_of_le_of_lt hround hsummit)
    · exact h.tidy m hm
  · intro hd bs hbs
    rcases (hcharted hd).2 bs hbs with rfl | hold
    · exact hlt'
    · exact Nat.le_trans hold hle
  · refine h.announced_append htodo (List.subset_cons_self _ _) List.mem_cons_self
      (fun hd => ⟨hdistinct hd, onward_attach hd⟩) fun hd => ⟨List.mem_cons_self, fun heq => ?_, nofun⟩
    have hmem : (s.world.chain.attach (moves round)).1.hash ∈ s.world.chain.known.map Header.hash := by
      rw [heq]
      exact List.mem_map_of_mem h.grown.genesis
    exact (List.nodup_cons.mp hd).1 hmem
  · intro hlength
    have hfalse := hlast hlength
    refine ⟨fun side => List.mem_append_left _
      (mem_announcements.mpr ⟨rfl, ⟨side, rfl⟩, rfl, hfalse.symm⟩), ?_⟩
    intro hd bs hbs
    exact Nat.lt_of_le_of_lt (hmost (hdistinct hd) bs hbs) hhighest

theorem acts_unmine (h : Planned T s) (htodo : s.todo = .unmine :: todo) :
    ∃ b chain, s.world.chain.detach = .ok (b, chain) ∧ Acts T s { s with
      world := { s.world with chain }
      todo := announcements .detach b true ++ todo } := by
  obtain ⟨highest, hphase, hmost⟩ := h.phase
  have hagenda : agenda s.todo = .unmine :: agenda todo := by rw [htodo]; rfl
  rw [hagenda] at hphase
  obtain ⟨hlt, _⟩ := hphase.below (List.cons_ne_nil _ _)
  cases hbranch : s.world.chain.branch with
  | nil =>
    rw [hbranch] at hphase
    exact absurd hphase Phase.ne_unmine
  | cons b below =>
    have hdetach : s.world.chain.detach = .ok (b, { s.world.chain with branch := below }) := by
      rw [SimulatedChain.detach, hbranch]
    rw [hbranch] at hphase hlt
    obtain ⟨hhighest, hdepth, highest', hle, hphase'⟩ := hphase.unmine
    have hrooted : Rooted s.world.chain.known (b :: below) := hbranch ▸ h.grown.branch
    have honward := onward_detach hdetach
    refine ⟨b, _, hdetach, rfl, rfl, ?_, ⟨h.blocks, h.depth, h.summit_le, h.grown.detach hdetach, h.tidy,
      ⟨highest', hphase', fun hd bs hbs => Nat.le_trans (hmost hd bs hbs) hle⟩, fun hd => ?_, ?_⟩,
      .moved _ rfl id (fun _ => honward) fun hlength => ?_⟩
    · rw [htodo, toil_append, toil_cons]
      exact Nat.add_lt_add_right (show 2 < 3 by decide) _
    · refine charted_detach (h.charted hd) (hmost hd) hhighest ?_ hdetach
      rw [hbranch]
      exact hdepth
    · refine h.announced_append htodo honward.known hrooted.1 (fun hd => ⟨hd, honward⟩)
        fun _ => ⟨hrooted.1, ?_, fun _ hmem => ?_⟩
      · rintro rfl
        cases hrooted.2.2.1
      · have hheight := hrooted.2.2.2.height_le hmem
        rw [hrooted.2.2.1] at hheight
        exact Nat.not_succ_le_self _ hheight
    · change below.length = T.summit at hlength
      rw [List.length_cons] at hlt
      omega

/-- The simulation never fails. -/
theorem Planned.act (h : Planned T s) (htodo : s.todo = action :: todo) :
    ∃ s', { s with todo }.act action = .ok s' ∧ Acts T s s' := by
  cases action with
  | rounds round => exact ⟨_, rfl, acts_rounds h htodo⟩
  | mine round mayDrop => exact ⟨_, rfl, acts_mine h htodo⟩
  | unmine =>
    obtain ⟨b, chain, hdetach, hacts⟩ := acts_unmine h htodo
    refine ⟨_, ?_, hacts⟩
    simp only [State.act, hdetach]
  | announce kind game b mayDrop =>
    obtain ⟨s', hs', hacts⟩ := acts_announce h htodo
    exact ⟨s', hs', hacts⟩
  | rest => exact ⟨_, rfl, acts_rest h htodo⟩

theorem Acts.distinct (h : Acts T s s') (hdistinct : s'.world.chain.Distinct) : s.world.chain.Distinct := by
  cases h.effect with
  | nothing hworld => rwa [hworld] at hdistinct
  | moved c hworld hdistinct' =>
    rw [hworld] at hdistinct
    exact hdistinct' hdistinct
  | published kind side b mayDrop m seq hannounced hm hhash hworld =>
    rw [hworld] at hdistinct
    exact hdistinct

theorem rooted_start {network : Network} {bs : List Header}
    (h : Rooted (SimulatedChain.start network).known bs) : bs = [] := by
  cases bs with
  | nil => rfl
  | cons b below =>
    obtain rfl : b = SimulatedChain.genesis := List.mem_singleton.mp h.1
    cases h.2.2.1

theorem planned_start {config : SimulationConfig} {w : World ν τ} {network : Network}
    (hblocks : config.blocks.toNat + 1 = T.summit) (hdepth : config.reorgDepth.toNat = T.depth)
    (hsummit : T.summit ≤ 2 ^ 60) (hchain : w.chain = .start network) (publisher : Publisher) :
    Planned T (start config w publisher) := by
  have hpositive : 0 < T.summit := by omega
  have hcharted : (SimulatedChain.start network).Distinct → Charted T (.start network) := by
    refine fun hdistinct => ⟨SimulatedChain.grown_start network, hdistinct, fun bs hbs => ?_,
      fun bs hbs => ?_,
      fun hlast => ?_, hsummit⟩
    · rw [rooted_start hbs, List.drop_nil]
      exact List.nil_suffix
    · rw [rooted_start hbs]
      exact Nat.zero_le _
    · exact absurd hlast (Nat.ne_of_lt hpositive)
  unfold start
  refine ⟨hblocks, hdepth, hsummit, ?_, fun m hm => ?_, ⟨0, ?_, fun _ bs hbs => ?_⟩, ?_,
    fun kind game b mayDrop hmem => ?_⟩
  · rw [hchain]
    exact SimulatedChain.grown_start network
  · rw [hchain] at hm
    rw [List.mem_singleton.mp hm]
    exact List.forall_mem_nil _
  · rw [hchain]
    exact .round rfl rfl hpositive
  · rw [hchain] at hbs
    rw [rooted_start hbs]
    exact Nat.zero_le _
  · rw [hchain]
    exact hcharted
  · cases List.mem_singleton.mp hmem

end Simulation

end ChainFollower
