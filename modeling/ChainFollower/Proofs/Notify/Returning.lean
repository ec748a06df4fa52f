import ChainFollower.Proofs.Notify.Logged
import Mathlib.Logic.Relation

namespace ChainFollower

/-- A call that comes to an end, whatever it asks on the way. -/
inductive Listener.Returns {L τ : Type} [Listener L]
    (answer : L → (r : Listener.Request L) → τ → Listener.Reply r × τ) :
    L → Progress (Listener.Call L) (Listener.Result L) (Listener.Halt L) → τ → Prop
  | returned {l : L} {result : Listener.Result L} {rest : τ} : Returns answer l (.returned result) rest
  | asks {l : L} {call : Listener.Call L} {rest : τ}
      (h : Returns answer
        (Listener.proceed l call (answer l (Listener.request l call) rest).1).1
        (Listener.proceed l call (answer l (Listener.request l call) rest).1).2
        (answer l (Listener.request l call) rest).2) :
      Returns answer l (.asks call) rest
  | rests {l : L} {d : Duration} {call : Listener.Call L} {rest : τ}
      (h : Returns answer l (.asks call) rest) : Returns answer l (.rests d call) rest

/-- Every call that a worker makes comes to an end. -/
structure Listener.AllReturn {L τ : Type} [Listener L]
    (answer : L → (r : Listener.Request L) → τ → Listener.Reply r × τ) : Prop where
  started : ∀ (l : L) (rest : τ), Returns answer (Listener.started l).1 (Listener.started l).2 rest
  notified : ∀ (l : L) (n : Notification) (rest : τ),
    Returns answer (Listener.notified l n).1 (Listener.notified l n).2 rest

namespace Listener

variable {L τ : Type} [Listener L] {answer : L → (r : Listener.Request L) → τ → Listener.Reply r × τ} {l : L}
  {rest : τ} {progress : Progress (Listener.Call L) (Listener.Result L) (Listener.Halt L)}

theorem Returns.not_halted (h : Returns answer l progress rest) (x : Listener.Halt L) : progress ≠ .halted x := by
  rintro rfl
  cases h

theorem Returns.logged (h : Returns answer l progress rest) (told : List Notification) :
    Returns (L := Logged L) (Logged.answer answer) ⟨l, told⟩ progress rest := by
  induction h with
  | returned => exact .returned
  | asks _ ih => exact .asks ih
  | rests _ ih => exact .rests ih

theorem AllReturn.logged (h : AllReturn answer) : AllReturn (Logged.answer answer) where
  started l rest := (h.started l.listener rest).logged l.told
  notified l n rest := (h.notified l.listener n rest).logged (l.told ++ [n])

end Listener

namespace Worker

variable {L τ : Type} [Listener L] {answer : L → (r : Listener.Request L) → τ → Listener.Reply r × τ}
  {w w' : Worker L} {bus bus' : Bus} {rest rest' : τ} {now : Nat} {seat : Seat} {l : L}
  {progress : Progress (Listener.Call L) (Listener.Result L) (Listener.Halt L)}

/-- The worker is busy with this call of this listener. -/
def Doing (w : Worker L) (seat : Seat) (l : L) :
    Progress (Listener.Call L) (Listener.Result L) (Listener.Halt L) → Prop
  | .asks call => w.activity = .asking seat call ∧ w.listener? seat = some l
  | .rests _ call => ∃ due, w.activity = .resting seat due call ∧ w.listener? seat = some l
  | .returned _ => w.activity = .free
  | .halted _ => False

/-- The call that is going on, if there is one, comes to an end. -/
def Prompt (answer : L → (r : Listener.Request L) → τ → Listener.Reply r × τ) (w : Worker L) (rest : τ) : Prop :=
  w.activity = .free ∨
    ∃ seat l progress, w.Doing seat l progress ∧ Listener.Returns answer l progress rest

theorem doing_progressed (now : Nat)
    (step : L × Progress (Listener.Call L) (Listener.Result L) (Listener.Halt L))
    (hseat : (w.listener? seat).isSome) (hstep : ∀ x, step.2 ≠ .halted x) :
    (w.progressed now seat step).Doing seat step.1 step.2 := by
  obtain ⟨l, hl⟩ := Option.isSome_iff_exists.mp hseat
  have hset : (w.setListener seat step.1).listener? seat = some step.1 := by
    rw [listener?_setListener, if_pos rfl, hl]
    rfl
  unfold progressed Doing
  cases hp : step.2 with
  | asks call => exact ⟨rfl, hset⟩
  | rests d call => exact ⟨_, rfl, hset⟩
  | returned result => rfl
  | halted x => exact absurd hp (hstep x)

theorem prompt_progressed {step : L × Progress (Listener.Call L) (Listener.Result L) (Listener.Halt L)}
    (hl : w.listener? seat = some l) (hreturns : Listener.Returns answer step.1 step.2 rest) (now : Nat) :
    (w.progressed now seat step).Prompt answer rest :=
  .inr ⟨seat, step.1, step.2, doing_progressed now step (by rw [hl]; rfl) hreturns.not_halted, hreturns⟩

theorem prompt_runErrand (hreturn : Listener.AllReturn answer) (hfree : w.activity = .free) (now : Nat)
    (errand : Errand) (rest : τ) : (w.runErrand now errand).Prompt answer rest := by
  unfold runErrand
  cases errand with
  | started seat =>
    simp only
    split
    · exact .inl hfree
    · next l hl => exact prompt_progressed hl (hreturn.started l rest) now
  | notified seat n =>
    simp only
    split
    · exact .inl hfree
    · next l hl => exact prompt_progressed hl (hreturn.notified l n rest) now

/-- A worker that is free and has errands begins the first. -/
theorem prompt_of_free (hreturn : Listener.AllReturn answer) (hfree : w.activity = .free)
    (hgoing : w.stopping = false) (hbusy : ¬w.Awaits)
    (hstep : w.step? (.mail answer) now (bus, rest) = some (w', (bus, rest'))) : w'.Prompt answer rest' := by
  unfold step? at hstep
  rw [hfree] at hstep
  simp only at hstep
  split at hstep
  · next errand errands _ =>
    cases hstep
    exact prompt_runErrand hreturn rfl now errand rest
  · next herrands => exact absurd ⟨by simp [isFree, hfree], herrands, hgoing⟩ hbusy

theorem Prompt.step? (hreturn : Listener.AllReturn answer) (h : w.Prompt answer rest)
    (hgoing : w.stopping = false) (hfinished : w'.finished = false)
    (hstep : w.step? (.mail answer) now (bus, rest) = some (w', (bus', rest'))) : w'.Prompt answer rest' := by
  rcases step?_cases hstep with ⟨hawaits, rfl, m, _, rfl⟩ | ⟨hbusy, rfl, _, _⟩
  · have hfree := activity_of_isFree hawaits.1
    refine .inl ?_
    split
    · next haccepts =>
      rw [if_pos haccepts] at hfinished
      exact (activity_handle_of_going hfinished).trans hfree
    · exact hfree
  · rcases h with hfree | ⟨seat, l, progress, hdoing, hreturns⟩
    · exact prompt_of_free hreturn hfree hgoing hbusy hstep
    · cases hreturns with
      | returned => exact prompt_of_free hreturn hdoing hgoing hbusy hstep
      | @rests _ _ call _ hnext =>
        obtain ⟨due, hactivity, hl⟩ := hdoing
        unfold Worker.step? at hstep
        rw [hactivity] at hstep
        simp only at hstep
        split at hstep
        · cases hstep
          exact .inr ⟨seat, l, .asks call, ⟨rfl, hl⟩, hnext⟩
        · cases hstep
      | asks hnext =>
        obtain ⟨hactivity, hl⟩ := hdoing
        unfold Worker.step? at hstep
        rw [hactivity] at hstep
        simp only [hl] at hstep
        cases hstep
        exact prompt_progressed hl hnext now

/-- A step that takes no message. -/
def Toils (answer : L → (r : Listener.Request L) → τ → Listener.Reply r × τ) (bus : Bus)
    (p p' : Worker L × τ) : Prop :=
  ¬p.1.Awaits ∧ ∃ now, p.1.step? (.mail answer) now (bus, p.2) = some (p'.1, (bus, p'.2))

/-- A call that is going on comes to its end. -/
theorem exists_free (bus : Bus) (hreturns : Listener.Returns answer l progress rest)
    (hdoing : w.Doing seat l progress) :
    ∃ w' rest', Relation.ReflTransGen (Toils answer bus) (w, rest) (w', rest') ∧ w'.activity = .free ∧
      w'.errands = w.errands ∧ Alike w w' := by
  induction hreturns generalizing w with
  | @returned l result rest => exact ⟨w, rest, .refl, hdoing, rfl, .refl w⟩
  | @rests l d call rest _ ih =>
    obtain ⟨due, hactivity, hl⟩ := hdoing
    have hbusy : ¬w.Awaits := not_awaits_of_busy (by simp [isFree, hactivity])
    have hstep : w.step? (.mail answer) due (bus, rest) =
        some ({ w with activity := .asking seat call }, (bus, rest)) := by
      unfold Worker.step?
      rw [hactivity]
      simp
    obtain ⟨w', rest', htoils, hfree, herrands, halike⟩ :=
      ih (w := { w with activity := .asking seat call }) ⟨rfl, hl⟩
    exact ⟨w', rest', .head ⟨hbusy, due, hstep⟩ htoils, hfree, herrands,
      ⟨halike.socket, halike.suppressed, halike.stopping, halike.tracker, halike.shape⟩⟩
  | @asks l call rest hnext ih =>
    obtain ⟨hactivity, hl⟩ := hdoing
    have hbusy : ¬w.Awaits := not_awaits_of_busy (by simp [isFree, hactivity])
    have hstep : w.step? (.mail answer) 0 (bus, rest) =
        some (w.progressed 0 seat
          (Listener.proceed l call (answer l (Listener.request l call) rest).1),
          (bus, (answer l (Listener.request l call) rest).2)) := by
      unfold Worker.step?
      rw [hactivity]
      simp only [hl]
      rfl
    obtain ⟨w', rest', htoils, hfree, herrands, halike⟩ :=
      ih (doing_progressed 0 (Listener.proceed l call (answer l (Listener.request l call) rest).1)
        (by rw [hl]; rfl) hnext.not_halted)
    obtain ⟨hbefore, herrands'⟩ := alike_progressed w 0 seat
      (Listener.proceed l call (answer l (Listener.request l call) rest).1)
    exact ⟨w', rest', .head ⟨hbusy, 0, hstep⟩ htoils, hfree, herrands.trans herrands', hbefore.trans halike⟩

theorem Prompt.exists_free (h : w.Prompt answer rest) (bus : Bus) :
    ∃ w' rest', Relation.ReflTransGen (Toils answer bus) (w, rest) (w', rest') ∧ w'.activity = .free ∧
      w'.errands = w.errands ∧ Alike w w' := by
  rcases h with hfree | ⟨seat, l, progress, hdoing, hreturns⟩
  · exact ⟨w, rest, .refl, hfree, rfl, .refl w⟩
  · exact Worker.exists_free bus hreturns hdoing

/-- A worker that is free makes all the calls that are due. -/
theorem exists_done (hreturn : Listener.AllReturn answer) (hfree : w.activity = .free) (bus : Bus) (rest : τ) :
    ∃ w' rest', Relation.ReflTransGen (Toils answer bus) (w, rest) (w', rest') ∧ w'.activity = .free ∧
      w'.errands = [] ∧ Alike w w' := by
  generalize herrands : w.errands = errands
  induction errands generalizing w rest with
  | nil => exact ⟨w, rest, .refl, hfree, herrands, .refl w⟩
  | cons errand errands ih =>
    have hbusy : ¬w.Awaits := by
      rintro ⟨_, hnone, _⟩
      cases herrands.symm.trans hnone
    have hstep : w.step? (.mail answer) 0 (bus, rest) =
        some (({ w with errands } : Worker L).runErrand 0 errand, (bus, rest)) := by
      unfold Worker.step?
      rw [hfree]
      simp only [herrands]
    obtain ⟨hbegun, hleft⟩ := alike_runErrand { w with errands } 0 errand
    obtain ⟨w₁, rest₁, hcall, hfree₁, herrands₁, hcalled⟩ :=
      (prompt_runErrand hreturn (w := { w with errands }) hfree 0 errand rest).exists_free bus
    obtain ⟨w', rest', htoils, hfree', hnone, hdone⟩ := ih hfree₁ rest₁ (herrands₁.trans hleft)
    have halike : Alike w ({ w with errands } : Worker L) := ⟨rfl, rfl, rfl, rfl, rfl⟩
    exact ⟨w', rest', .head ⟨hbusy, 0, hstep⟩ (hcall.trans htoils), hfree', hnone,
      halike.trans (hbegun.trans (hcalled.trans hdone))⟩

end Worker

theorem Enquirer.allReturn {τ : Type}
    (answer : Enquirer → (r : Listener.Request Enquirer) → τ → Listener.Reply r × τ) :
    Listener.AllReturn answer where
  started _ _ := .returned
  notified _ _ _ := .asks .returned

end ChainFollower
