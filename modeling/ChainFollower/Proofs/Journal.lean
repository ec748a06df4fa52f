import ChainFollower.Proofs.Lookup
import ChainFollower.Proofs.Replay
import ChainFollower.Store.Memory

namespace ChainFollower

structure Holdings where
  current : Option StoredState
  record : Tip → Option UndoRecord

namespace Holdings

def empty : Holdings := ⟨none, fun _ => none⟩

def commit (c : Commit) (h : Holdings) : Holdings where
  current := some c.stored
  record tip :=
    match c.undo with
    | some record => if tip = c.tip then some record else h.record tip
    | none => h.record tip

def dropBelow (height : UInt64) (h : Holdings) : Holdings where
  current := h.current
  record tip := if tip.height < height then none else h.record tip

@[simp] theorem current_commit {c : Commit} {h : Holdings} : (h.commit c).current = some c.stored :=
  rfl

@[simp] theorem record_commit_withoutUndo {tip : Tip} {state : Bytes} {h : Holdings} :
    (h.commit (.withoutUndo tip state)).record = h.record := rfl

theorem record_commit_forward {tip other : Tip} {state : Bytes} {parent : Hash} {undo : Bytes}
    {h : Holdings} :
    (h.commit (.forward tip state parent undo)).record other =
      if other = tip then some ⟨parent, undo⟩ else h.record other := rfl

/-- After a commit there are its own record and those from before. -/
theorem record_commit_cases {c : Commit} {h : Holdings} {tip : Tip} {record : UndoRecord}
    (hr : (h.commit c).record tip = some record) :
    (tip = c.tip ∧ c.undo = some record) ∨ h.record tip = some record := by
  unfold commit at hr
  cases hu : c.undo with
  | none => exact .inr (by simpa only [hu] using hr)
  | some kept =>
    simp only [hu] at hr
    split at hr
    · next htip => exact .inl ⟨htip, hr⟩
    · exact .inr hr

theorem record_of_dropBelow {height : UInt64} {tip : Tip} {record : UndoRecord} {h : Holdings}
    (hr : (h.dropBelow height).record tip = some record) : h.record tip = some record := by
  simp only [dropBelow] at hr
  split at hr
  · cases hr
  · exact hr

end Holdings

namespace MemoryStore

def holdings (s : MemoryStore) : Holdings := ⟨s.current, fun tip => s.undo? tip⟩

@[simp] theorem holdings_empty : empty.holdings = Holdings.empty := rfl

theorem lookup_insert (tip other : Tip) (record : UndoRecord) (journal : List (Tip × UndoRecord)) :
    (insert tip record journal).lookup other =
      if other = tip then some record else journal.lookup other := by
  induction journal with
  | nil => exact lookup_cons_if other tip record []
  | cons entry rest ih =>
    obtain ⟨t, r⟩ := entry
    unfold insert
    split
    · exact lookup_cons_if other tip record _
    · split
      · next heq =>
        obtain rfl : tip = t := heq
        rw [lookup_cons_if, lookup_cons_if]
        by_cases h : other = tip
        · rw [if_pos h, if_pos h]
        · rw [if_neg h, if_neg h, if_neg h]
      · next hne =>
        rw [lookup_cons_if, lookup_cons_if, ih]
        by_cases h : other = tip
        · have hother : other ≠ t := h ▸ hne
          rw [if_pos h, if_neg hother, if_pos h]
        · rw [if_neg h, if_neg h]

theorem lookup_filter_height (height : UInt64) (tip : Tip) (journal : List (Tip × UndoRecord)) :
    (journal.filter fun entry => height ≤ entry.1.height).lookup tip =
      if tip.height < height then none else journal.lookup tip := by
  refine (lookup_filter_key (fun tip => decide (height ≤ tip.height)) journal tip).trans ?_
  by_cases h : tip.height < height
  · rw [if_pos h, if_neg (by simpa using h)]
  · rw [if_neg h, if_pos (by simpa using h)]

@[simp] theorem holdings_commit (c : Commit) (s : MemoryStore) :
    (s.commit c).holdings = s.holdings.commit c := by
  obtain ⟨tip, state, undo⟩ := c
  cases undo with
  | none => rfl
  | some record =>
    simp only [holdings, commit, Holdings.commit, undo?, lookup_insert]

@[simp] theorem holdings_dropBelow (height : UInt64) (s : MemoryStore) :
    (s.dropBelow height).holdings = s.holdings.dropBelow height := by
  simp only [holdings, dropBelow, Holdings.dropBelow, undo?, lookup_filter_height]

theorem undo?_commit (c : Commit) (s : MemoryStore) (tip : Tip) :
    (s.commit c).undo? tip = (s.holdings.commit c).record tip :=
  congrArg (fun held => Holdings.record held tip) (holdings_commit c s)

theorem undo?_dropBelow (height : UInt64) (s : MemoryStore) (tip : Tip) :
    (s.dropBelow height).undo? tip = (s.holdings.dropBelow height).record tip :=
  congrArg (fun held => Holdings.record held tip) (holdings_dropBelow height s)

end MemoryStore

namespace Rules

variable {R : Rules} {L : Ledger R.initial.tip}

/-- The record of the block at `tip`: its parent, and the undo data of the step over it. -/
def Recorded (R : Rules) (L : Ledger R.initial.tip) (tip : Tip) (record : UndoRecord) : Prop :=
  ∃ below before b step, R.Applies L below before b step ∧ b.tip = tip ∧
    record = ⟨b.header.parent, step.undo⟩

/-- Each of these blocks can be undone with what the store holds. -/
def Journaled (R : Rules) (L : Ledger R.initial.tip) (h : Holdings) (bs : List Block) : Prop :=
  ∀ b ∈ bs, ∃ record, h.record b.tip = some record ∧ R.Recorded L b.tip record

theorem Applies.recorded {below : List Block} {before : StoredState} {b : Block} {step : ForwardStep}
    (h : R.Applies L below before b step) : R.Recorded L b.tip ⟨b.header.parent, step.undo⟩ :=
  ⟨below, before, b, step, h, rfl, rfl⟩

/-- A block has one record. -/
theorem Applies.record_eq {below : List Block} {before : StoredState} {b : Block}
    {step : ForwardStep} {record : UndoRecord} (h : R.Applies L below before b step)
    (hr : R.Recorded L b.tip record) : record = ⟨b.header.parent, step.undo⟩ := by
  obtain ⟨below', before', b', step', h', htip, rfl⟩ := hr
  have hb : b' = b := h'.holds.eq_of_tip h.holds htip
  subst hb
  obtain ⟨_, _, rfl⟩ := h.unique h'
  rfl

/-- The block where the game starts has no record. -/
theorem not_recorded_initial {record : UndoRecord} : ¬R.Recorded L R.initial.tip record := by
  rintro ⟨below, before, b, step, h, htip, _⟩
  have hnil := h.stands_cons.eq_nil_iff.mpr htip
  simp at hnil

theorem Journaled.mono {held held' : Holdings} {bs cs : List Block} (hj : R.Journaled L held bs)
    (hrec : held'.record = held.record) (hsub : ∀ b ∈ cs, b ∈ bs) : R.Journaled L held' cs := by
  intro b hb
  rw [hrec]
  exact hj b (hsub b hb)

theorem Journaled.commit_forward {below : List Block} {before : StoredState} {b : Block}
    {step : ForwardStep} {held : Holdings} (hj : R.Journaled L held below)
    (h : R.Applies L below before b step) :
    R.Journaled L (held.commit (.forward b.tip step.state b.header.parent step.undo))
      (b :: below) := by
  intro c hc
  by_cases htip : c.tip = b.tip
  · refine ⟨⟨b.header.parent, step.undo⟩, ?_, htip ▸ h.recorded⟩
    rw [Holdings.record_commit_forward, if_pos htip]
  · have hm : c ∈ below := by
      rcases List.mem_cons.mp hc with rfl | hm
      · exact absurd rfl htip
      · exact hm
    obtain ⟨record, hr, hrec⟩ := hj c hm
    refine ⟨record, ?_, hrec⟩
    rw [Holdings.record_commit_forward, if_neg htip, hr]

end Rules

namespace Fork

/-- The store of a game on its first block. -/
def rootStore : MemoryStore := MemoryStore.empty.commit (.withoutUndo start.tip [])

/-- The store of a game that has applied `left`. -/
def store : MemoryStore :=
  (MemoryStore.empty.commit (.withoutUndo start.tip [])).commit
    (.forward left.tip [0] start.header.hash [])

theorem journaled_left : rules.Journaled ledger store.holdings [left] := by
  intro b hb
  rw [List.mem_singleton.mp hb]
  exact ⟨_, rfl, applies_left.recorded⟩

end Fork

end ChainFollower
