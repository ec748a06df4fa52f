import ChainFollower.Proofs.Game.Play
import ChainFollower.Proofs.Game.Transparency
import ChainFollower.Proofs.Json.Text

namespace ChainFollower

namespace Tally

variable {start : Tip} {b : Buffered Unit}

/-- What is asked for is what the longest output takes, so that the next call has it. -/
theorem call_tooSmall (start : Tip) (c : GameCall) {size : Nat} (s : Unit)
    (hless : size < c.needed (results start c)) :
    ∃ buffers, ((calls start).call c size s).1 = (.tooSmall (c.needed (results start c)), buffers) := by
  cases c with
  | names =>
    rw [needed_names] at hless ⊢
    have hcall : ((calls start).call .names size s).1 = _ := names_zeros size
    rw [hcall]
    exact ⟨_, by simp only [report, decide_eq_false (Nat.not_le.mpr hless)]; rfl⟩
  | initial network => exact absurd hless (Nat.not_lt_zero size)
  | forward network state block =>
    rw [needed_forward, ← length_next state block] at hless ⊢
    have hcall : ((calls start).call (.forward network state block) size s).1 =
        (report (decide (_ ≤ size)) _ _, _) := rfl
    rw [hcall, report, decide_eq_false (Nat.not_le.mpr hless)]
    exact ⟨_, rfl⟩
  | backward network state block undo =>
    have hcall : ((calls start).call (.backward network state block undo) size s).1 =
        (report (decide (_ ≤ size)) _ _, _) := rfl
    have hneeded : GameCall.needed (.backward network state block undo)
        (results start (.backward network state block undo)) = (state.take (state.length - 4)).length := rfl
    rw [hneeded] at hless ⊢
    rw [hcall, report, decide_eq_false (Nat.not_le.mpr hless)]
    exact ⟨_, rfl⟩

/-- The call gives the result, unless that takes more than half of the largest buffer, and the game is
called no more than twice for it. -/
def AtMostTwice (start : Tip) (b : Buffered Unit) (c : GameCall) (result : c.Result) : Prop :=
  ∃ (answer : Except GameFailure c.Result) (b' : Buffered Unit) (sizes : List Nat),
    (game start).answer c b = (answer, b') ∧
    (∀ log, (Buffered.game (calls start).logged).answer c ⟨(b.inner, log), b.size⟩ =
      (answer, ⟨(b'.inner, log ++ sizes.map c.handed), b'.size⟩)) ∧
    sizes.length ≤ 2 ∧
    (answer = .ok result ∨ Buffered.maxSize < 2 * c.needed result ∧ answer = .error (.broken .tooLarge))

theorem atMostTwice (hb : Buffered.Used (calls start) b) (c : GameCall) :
    AtMostTwice start b c (results start c) := by
  have hcomputes := computes_calls Unit start
  obtain ⟨finish, hretry, hfits⟩ := Buffered.exists_retry hcomputes c
  unfold AtMostTwice game
  simp only [hretry]
  exact Buffered.exists_two_tries hfits (fun size s => call_tooSmall start c s)
    ((calls start).call_logged c) (hb.bounds hcomputes).2

theorem AtMostTwice.eq {c : GameCall} {result other : c.Result} (h : AtMostTwice start b c result)
    (hcall : ((game start).answer c b).1 = .ok other) : other = result := by
  obtain ⟨answer, b', sizes, hanswer, -, -, hok | ⟨-, hfailed⟩⟩ := h
  · rw [hanswer, hok] at hcall
    exact (Except.ok.inj hcall).symm
  · rw [hanswer, hfailed] at hcall
    exact absurd hcall (by simp)

/-- The number of a block's moves, zero where there is no list of them. -/
def entries (block : Json) : Nat :=
  match block.field? "moves" with
  | some (.arr moves) => moves.length
  | _ => 0

theorem moveCount_text {block : Json} (hread : Json.ofText? block.text = some block)
    (hfew : entries block < UInt32.size) : moveCount block.text = UInt32.ofNat (entries block) := by
  cases hfield : block.field? "moves" with
  | none => simp only [moveCount, entries, hread, Option.bind_some, hfield]; rfl
  | some value =>
    cases value with
    | arr moves =>
      simp only [entries, hfield] at hfew
      simp only [moveCount, entries, hread, Option.bind_some, hfield, if_pos hfew]
    | _ => simp only [moveCount, entries, hread, Option.bind_some, hfield]; rfl

/-- Taking off the last count leaves what it was added to. -/
theorem take_counted (state : Bytes) (count : UInt32) :
    (state ++ Bytes.ofUInt32 count).take ((state ++ Bytes.ofUInt32 count).length - 4) = state := by
  rw [List.length_append, Bytes.length_ofUInt32, Nat.add_sub_cancel, List.take_left']
  rfl

/-- The counts of blocks, the last one's at the end, as the game reads them from the blocks' texts. -/
def counted : List AppliedBlock → Bytes
  | [] => []
  | a :: earlier => counted earlier ++ Bytes.ofUInt32 (moveCount a.block.text)

theorem counted_eq {applied : List AppliedBlock}
    (hread : ∀ a ∈ applied, Json.ofText? a.block.text = some a.block ∧ entries a.block < UInt32.size) :
    counted applied =
      applied.reverse.flatMap fun a => Bytes.ofUInt32 (UInt32.ofNat (entries a.block)) := by
  induction applied with
  | nil => rfl
  | cons a earlier ih =>
    obtain ⟨htext, hfew⟩ := hread a List.mem_cons_self
    rw [counted, ih fun other hother => hread other (List.mem_cons_of_mem a hother),
      moveCount_text htext hfew, List.reverse_cons, List.flatMap_append, List.flatMap_singleton]

/-- Every block was applied to the counts of the blocks below it. -/
inductive Stacked : List AppliedBlock → Prop
  | nil : Stacked []
  | cons {a : AppliedBlock} {earlier : List AppliedBlock} (hbefore : a.before = counted earlier)
      (hearlier : Stacked earlier) : Stacked (a :: earlier)

theorem counted_play {state : Bytes} {applied : List AppliedBlock}
    (hplayed : (game start).Played (Buffered.Used (calls start)) state applied) :
    state = counted applied ∧ Stacked applied := by
  induction hplayed with
  | initial network haround hcall =>
    have hresult := (atMostTwice haround (.initial network)).eq hcall
    exact ⟨congrArg InitialState.state hresult, .nil⟩
  | forward network block _ haround hcall ih =>
    obtain ⟨hstate, hstacked⟩ := ih
    have hresult := (atMostTwice haround (.forward network _ block)).eq hcall
    refine ⟨?_, .cons hstate hstacked⟩
    rw [counted, ← hstate]
    exact congrArg ForwardStep.state hresult
  | @backward network s state previous a applied _ haround hcall ih =>
    obtain ⟨hstate, hstacked⟩ := ih
    have hresult : previous = state.take (state.length - 4) :=
      (atMostTwice haround (.backward network state a.block a.undo)).eq hcall
    cases hstacked with
    | cons hbefore hearlier => exact ⟨by rw [hresult, hstate, counted, take_counted], hearlier⟩

/-- A play of the game. Its state is the numbers of moves of the applied blocks. Applying any block and
undoing the last one take at most two calls each, whatever size the buffers have, and give the state with
one count more and the state that the block was applied to. Any other bytes come back in the same way. The
limit is the capacity of a buffer: a state of more than `2 ^ 62` bytes can need a larger one than there is
(`AtMostTwice`). -/
theorem played_counts {state : Bytes} {applied : List AppliedBlock}
    (hplayed : (game start).Played (Buffered.Used (calls start)) state applied)
    (hread : ∀ a ∈ applied, Json.ofText? a.block.text = some a.block ∧ entries a.block < UInt32.size) :
    (state = applied.reverse.flatMap fun a => Bytes.ofUInt32 (UInt32.ofNat (entries a.block))) ∧
      ∀ network b, Buffered.Used (calls start) b →
        (∀ a earlier, applied = a :: earlier →
          AtMostTwice start b (.backward network state a.block a.undo) a.before) ∧
        ∀ old block, AtMostTwice start b (.forward network old block)
            ⟨old ++ Bytes.ofUInt32 (moveCount block.text), []⟩ ∧
          AtMostTwice start b
            (.backward network (old ++ Bytes.ofUInt32 (moveCount block.text)) block []) old := by
  obtain ⟨hstate, hstacked⟩ := counted_play hplayed
  refine ⟨hstate.trans (counted_eq hread), fun network b hb => ⟨fun a earlier happlied => ?_,
    fun old block => ⟨atMostTwice hb (.forward network old block), ?_⟩⟩⟩
  · subst happlied
    cases hstacked with
    | cons hbefore _ =>
      have hcall := atMostTwice hb (.backward network state a.block a.undo)
      have hresult : results start (.backward network state a.block a.undo) = a.before := by
        rw [hbefore, ← take_counted (counted earlier) (moveCount a.block.text), hstate]
        rfl
      rwa [hresult] at hcall
  · have hcall := atMostTwice hb
      (.backward network (old ++ Bytes.ofUInt32 (moveCount block.text)) block [])
    have hresult : results start
        (.backward network (old ++ Bytes.ofUInt32 (moveCount block.text)) block []) = old :=
      take_counted old _
    rwa [hresult] at hcall

/-- Three moves. -/
def opening : Json := .obj [("moves", .arr [.str "a", .null, .arr []])]

/-- Moves that are no list. -/
def silence : Json := .obj [("moves", .bool true)]

/-- A block without a list of moves is undone, and another is applied in its place. -/
theorem played_counts_silence :
    (game ⟨7, .zero⟩).Played (Buffered.Used (calls ⟨7, .zero⟩)) [3, 0, 0, 0, 3, 0, 0, 0]
        [⟨opening, [3, 0, 0, 0], []⟩, ⟨opening, [], []⟩] ∧
      AtMostTwice ⟨7, .zero⟩ (.start ()) (.backward .main [3, 0, 0, 0, 3, 0, 0, 0] opening [])
        [3, 0, 0, 0] := by
  have hopening : Json.ofText? opening.text = some opening :=
    Json.ofText?_text (by simp [opening, Json.Tidy, Json.TidyFields, Json.TidyItems, Json.maxDepth])
  have hthree : moveCount opening.text = 3 := moveCount_text hopening (by decide)
  have hnone : moveCount silence.text = 0 :=
    moveCount_text (Json.ofText?_text (by simp [silence, Json.Tidy, Json.TidyFields, Json.maxDepth]))
      (by decide)
  have hforward (state : Bytes) (block : Json) (hlength : state.length + 4 ≤ 2 ^ 62) :
      ((game ⟨7, .zero⟩).forward .main state block (.start ())).1 =
        .ok ⟨state ++ Bytes.ofUInt32 (moveCount block.text), []⟩ := by
    obtain ⟨size, -, hcall⟩ := forward_eq (b := .start ()) ⟨7, .zero⟩ .main block (by decide) hlength
    exact congrArg Prod.fst hcall
  have hbackward (state : Bytes) (block : Json) (hlength : state.length ≤ 2 ^ 62) :
      ((game ⟨7, .zero⟩).backward .main state block [] (.start ())).1 =
        .ok (state.take (state.length - 4)) := by
    obtain ⟨size, -, hcall⟩ := backward_eq (b := .start ()) ⟨7, .zero⟩ .main block [] (by decide) hlength
    exact congrArg Prod.fst hcall
  have hfresh : Buffered.Used (calls ⟨7, .zero⟩) (.start ()) := .start ()
  have hinitial : ((game ⟨7, .zero⟩).initial .main (.start ())).1 = .ok ⟨[], 7, .zero⟩ := by
    obtain ⟨size, -, hcall⟩ := initial_eq (b := .start ()) ⟨7, .zero⟩ .main (by decide)
    exact congrArg Prod.fst hcall
  have hone := Game.Played.forward .main opening (.initial .main hfresh hinitial) hfresh
    (hforward [] opening (by decide))
  have hundone := Game.Played.backward .main
    (hone.forward .main silence hfresh (hforward _ silence (by decide))) hfresh
    (hbackward _ silence (by decide))
  have hplayed := hundone.forward .main opening hfresh (hforward _ opening (by decide))
  simp only [hthree, hnone] at hplayed
  have hback := ((played_counts hplayed (by simp [hopening]; decide)).2 .main _ hfresh).1 _ _ rfl
  exact ⟨hplayed, hback⟩

end Tally

end ChainFollower
