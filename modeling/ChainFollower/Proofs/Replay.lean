import ChainFollower.Proofs.Ledger
import ChainFollower.Game.Basic
import ChainFollower.Store.Record

namespace ChainFollower

/-- A game on one network, as functions of what its calls get; none where it refuses. -/
structure Rules where
  game : String
  network : Network
  initial : InitialState
  forward : Bytes → Json → Option ForwardStep
  backward : Bytes → Json → Bytes → Option Bytes
  /-- Backwards over a block, the game comes to the very bytes from which it went forwards. -/
  backward_forward {state : Bytes} {block : Json} {step : ForwardStep} :
    forward state block = some step → backward step.state block step.undo = some state

namespace Rules

variable {R : Rules} {L : Ledger R.initial.tip}

def replay (R : Rules) : List Block → Option Bytes
  | [] => some R.initial.state
  | b :: below =>
    (R.replay below).bind fun state => (R.forward state b.payload).map ForwardStep.state

/-- Replaying is folding the steps forwards over the blocks, the oldest one first. -/
theorem replay_eq_foldlM (bs : List Block) :
    R.replay bs = bs.reverse.foldlM
      (fun state b => (R.forward state b.payload).map ForwardStep.state) R.initial.state := by
  induction bs with
  | nil => rfl
  | cons b below ih =>
    simp only [replay, ih, List.reverse_cons, List.foldlM_append, List.foldlM_cons,
      List.foldlM_nil, bind_pure, Option.bind_eq_bind]

/-- A stored state that is the replay of a branch. -/
structure Stands (R : Rules) (L : Ledger R.initial.tip) (bs : List Block) (st : StoredState) :
    Prop where
  branch : L.Branch bs
  tip_eq : (L.top bs).tip = st.tip
  replay_eq : R.replay bs = some st.state

/-- The block `b` on a state that stands gives `step`. -/
structure Applies (R : Rules) (L : Ledger R.initial.tip) (below : List Block) (before : StoredState)
    (b : Block) (step : ForwardStep) : Prop where
  stands : R.Stands L below before
  holds : L.Holds b
  parent_eq : b.header.parent = before.tip.hash
  forward_eq : R.forward before.state b.payload = some step

theorem stands_initial : R.Stands L [] ⟨R.initial.tip, R.initial.state⟩ :=
  ⟨trivial, L.first_tip, rfl⟩

theorem Stands.top_hash {bs : List Block} {st : StoredState} (h : R.Stands L bs st) :
    (L.top bs).header.hash = st.tip.hash :=
  congrArg Tip.hash h.tip_eq

theorem Stands.top_height {bs : List Block} {st : StoredState} (h : R.Stands L bs st) :
    (L.top bs).header.height = st.tip.height :=
  congrArg Tip.height h.tip_eq

/-- The block of a tip is known by its hash alone. -/
theorem Stands.top_eq {bs : List Block} {st : StoredState} (h : R.Stands L bs st) {b : Block}
    (hb : L.Holds b) (heq : b.header.hash = st.tip.hash) : L.top bs = b :=
  h.branch.holds_top.eq_of_hash hb (h.top_hash.trans heq.symm)

theorem Stands.unique {bs cs : List Block} {st st' : StoredState} (h : R.Stands L bs st)
    (h' : R.Stands L cs st') (heq : st.tip = st'.tip) : bs = cs ∧ st = st' := by
  have htop : L.top bs = L.top cs := h.top_eq h'.branch.holds_top (by rw [h'.top_hash, heq])
  have hbs := h.branch.unique h'.branch htop
  subst hbs
  have hstate : st.state = st'.state := Option.some.inj (h.replay_eq.symm.trans h'.replay_eq)
  refine ⟨rfl, ?_⟩
  cases st
  cases st'
  simp_all

theorem Stands.eq_nil_iff {bs : List Block} {st : StoredState} (h : R.Stands L bs st) :
    bs = [] ↔ st.tip = R.initial.tip := by
  rw [h.branch.eq_nil_iff, h.tip_eq]

theorem Applies.stands_cons {below : List Block} {before : StoredState} {b : Block}
    {step : ForwardStep} (h : R.Applies L below before b step) :
    R.Stands L (b :: below) ⟨b.tip, step.state⟩ := by
  refine ⟨⟨h.holds, h.parent_eq.trans h.stands.top_hash.symm, h.stands.branch⟩, rfl, ?_⟩
  simp [replay, h.stands.replay_eq, h.forward_eq]

/-- The newest block of a branch was applied to the replay of the blocks below it. -/
theorem Stands.exists_applies {b : Block} {below : List Block} {st : StoredState}
    (h : R.Stands L (b :: below) st) :
    ∃ before step, R.Applies L below before b step ∧ st = ⟨b.tip, step.state⟩ := by
  obtain ⟨hb, hparent, hbelow⟩ := h.branch
  obtain ⟨state, hstate, hr⟩ := Option.bind_eq_some_iff.mp h.replay_eq
  obtain ⟨step, hstep, hout⟩ := Option.map_eq_some_iff.mp hr
  refine ⟨⟨(L.top below).tip, state⟩, step, ⟨⟨hbelow, rfl, hstate⟩, hb, hparent, hstep⟩, ?_⟩
  have htip : st.tip = b.tip := h.tip_eq.symm
  cases st
  simp_all

theorem Applies.unique {below below' : List Block} {before before' : StoredState} {b : Block}
    {step step' : ForwardStep} (h : R.Applies L below before b step)
    (h' : R.Applies L below' before' b step') :
    below = below' ∧ before = before' ∧ step = step' := by
  have hbelow : b :: below = b :: below' :=
    h.stands_cons.branch.unique h'.stands_cons.branch rfl
  obtain ⟨_, rfl⟩ := List.cons.inj hbelow
  have htip : before.tip = before'.tip := h.stands.tip_eq.symm.trans h'.stands.tip_eq
  obtain ⟨_, rfl⟩ := h.stands.unique h'.stands htip
  exact ⟨rfl, rfl, Option.some.inj (h.forward_eq.symm.trans h'.forward_eq)⟩

/-- Undoing a block leads to the tip that it was applied to. -/
theorem Applies.parentTip {below : List Block} {before : StoredState} {b : Block}
    {step : ForwardStep} (h : R.Applies L below before b step) :
    b.header.parentTip = before.tip := by
  rw [h.holds.parentTip h.stands.branch.holds_top (h.parent_eq.trans h.stands.top_hash.symm)]
  exact h.stands.tip_eq

theorem Applies.backward_eq {below : List Block} {before : StoredState} {b : Block}
    {step : ForwardStep} (h : R.Applies L below before b step) :
    R.backward step.state b.payload step.undo = some before.state :=
  R.backward_forward h.forward_eq

/-- A step backwards gives the tip and the state from which the step forwards was made. -/
theorem Applies.before_eq {below : List Block} {before : StoredState} {b : Block}
    {step : ForwardStep} {state : Bytes} (h : R.Applies L below before b step)
    (hstate : R.backward step.state b.payload step.undo = some state) :
    before = ⟨⟨lower b.tip.height, b.header.parent⟩, state⟩ := by
  have htip : before.tip = ⟨lower b.tip.height, b.header.parent⟩ := h.parentTip.symm
  have hst : before.state = state := Option.some.inj (h.backward_eq.symm.trans hstate)
  cases before
  simp_all

theorem Stands.hashAt_eq_some_iff {bs : List Block} {st : StoredState} (h : R.Stands L bs st)
    {c : L.Chain} : c.hashAt st.tip.height = some st.tip.hash ↔ L.top bs ∈ c.blocks := by
  rw [Ledger.Chain.hashAt_eq_some_iff]
  constructor
  · rintro ⟨b, hb, _, hhash⟩
    rw [h.top_eq (c.linked.holds hb) hhash]
    exact hb
  · intro hb
    exact ⟨L.top bs, hb, h.top_height, h.top_hash⟩

/-- On a canonical block below the tip of the chain lies the next canonical block. -/
theorem Stands.exists_next {bs : List Block} {st : StoredState} (h : R.Stands L bs st) {c : L.Chain}
    (hm : L.top bs ∈ c.blocks) (hlt : st.tip.height < c.tip.header.height) :
    ∃ b ∈ c.blocks, b.header.parent = st.tip.hash ∧ b.header.height = st.tip.height + 1 := by
  rw [← h.top_height] at hlt
  obtain ⟨b, hb, hparent, hheight⟩ := Ledger.Chain.exists_child hm hlt
  refine ⟨b, hb, hparent.trans h.top_hash, UInt64.toNat_inj.mp ?_⟩
  have hsize := b.header.height.toNat_lt
  rw [UInt64.toNat_add, ← h.top_height]
  simp
  omega

end Rules

namespace Fork

/-- A game whose state grows by one byte with each block. -/
def rules : Rules where
  game := "g"
  network := .regtest
  initial := ⟨[], start.header.height, start.header.hash⟩
  forward state _ := some ⟨0 :: state, []⟩
  backward state _ _ := some state.tail
  backward_forward h := by
    cases h
    rfl

theorem applies_left :
    rules.Applies ledger [] ⟨start.tip, []⟩ left ⟨[0], []⟩ :=
  ⟨Rules.stands_initial, rfl, rfl, rfl⟩

end Fork

end ChainFollower
