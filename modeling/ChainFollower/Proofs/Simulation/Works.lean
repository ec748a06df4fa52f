import Mathlib.Logic.Function.Basic
import ChainFollower.Proofs.Notify.Dispatch
import ChainFollower.Proofs.Simulation.Games

namespace ChainFollower

namespace Simulation

/-- Where the follower of a game sits. -/
def Side.seat (side : Side) : Seat := ⟨side.id, 0⟩

variable {ν τ : Type} {S : Stores ν τ} {fs : Side → Follower} {side : Side} {now : Nat} {w w' : World ν τ}
  {worker worker' : Worker (Hosted (World ν τ))}

/-- The followers of both games, each at its host. -/
def staff (S : Stores ν τ) (fs : Side → Follower) : List (String × List (Hosted (World ν τ))) :=
  [(Side.names.id, [⟨fs .names, S.host .names⟩]), (Side.tally.id, [⟨fs .tally, S.host .tally⟩])]

theorem Side.id_injective {side' : Side} (h : side.id = side'.id) : side = side' := by
  cases side <;> cases side' <;> first | rfl | exact absurd h (by decide)

theorem lookup_staff (S : Stores ν τ) (fs : Side → Follower) (side : Side) :
    (staff S fs).lookup side.id = some [⟨fs side, S.host side⟩] := by
  cases side <;> rfl

theorem lookup_staff_eq_some {game : String} {ls : List (Hosted (World ν τ))}
    (h : (staff S fs).lookup game = some ls) : ∃ side : Side, game = side.id ∧
      ls = [⟨fs side, S.host side⟩] := by
  unfold staff at h
  rw [List.lookup_cons, List.lookup_cons] at h
  split at h
  · next hgame => exact ⟨.names, by simpa using hgame, (Option.some.inj h).symm⟩
  · split at h
    · next hgame => exact ⟨.tally, by simpa using hgame, (Option.some.inj h).symm⟩
    · cases h

theorem listener?_staff (h : worker.listeners = staff S fs) (side : Side) :
    worker.listener? side.seat = some ⟨fs side, S.host side⟩ := by
  rw [Worker.listener?, h, Side.seat, lookup_staff]
  rfl

theorem listener?_eq_some (h : worker.listeners = staff S fs) {seat : Seat} {l : Hosted (World ν τ)}
    (hl : worker.listener? seat = some l) : ∃ side : Side, seat = side.seat ∧ l = ⟨fs side, S.host side⟩ := by
  obtain ⟨game, index⟩ := seat
  rw [Worker.listener?, h] at hl
  obtain ⟨ls, hls, hindex⟩ := Option.bind_eq_some_iff.mp hl
  obtain ⟨side, rfl, rfl⟩ := lookup_staff_eq_some hls
  cases index with
  | zero => exact ⟨side, rfl, (Option.some.inj hindex).symm⟩
  | succ index => cases hindex

theorem setListener_staff (h : worker.listeners = staff S fs) (side : Side) (f : Follower) :
    (worker.setListener side.seat ⟨f, S.host side⟩).listeners = staff S (Function.update fs side f) := by
  rw [Worker.setListener, h]
  cases side <;> rfl

theorem listeners_progressed (h : worker.listeners = staff S fs) (side : Side)
    (step : Follower × Follower.Next) :
    (worker.progressed now side.seat (Hosted.step ⟨fs side, S.host side⟩ step)).listeners =
      staff S (Function.update fs side step.1) := by
  have hset := setListener_staff h side step.1
  unfold Worker.progressed
  simp only [Hosted.step]
  split <;> exact hset

/-- What a step of the worker can be. -/
inductive Work (S : Stores ν τ) (fs : Side → Follower) (now : Nat) (worker : Worker (Hosted (World ν τ)))
    (w : World ν τ) : Worker (Hosted (World ν τ)) → World ν τ → Prop
  | wakes (seat : Seat) (due : Nat) (call : Call) (hactivity : worker.activity = .resting seat due call) :
      Work S fs now worker w { worker with activity := .asking seat call } w
  | asks (side : Side) (call : Call) (reply : ((fs side).request call).Reply) (w' : World ν τ)
      (hactivity : worker.activity = .asking side.seat call)
      (hreply : (S.host side).answer ((fs side).request call) w = (reply, w')) :
      Work S fs now worker w (worker.progressed now side.seat
        (Hosted.step ⟨fs side, S.host side⟩ ((fs side).proceed call reply))) w'
  /-- A call to nobody. -/
  | drops (seat : Seat) (call : Call) (hactivity : worker.activity = .asking seat call)
      (hseat : ∀ side : Side, seat ≠ side.seat) : Work S fs now worker w { worker with activity := .free } w
  | begins (errand : Errand) (errands : List Errand) (hactivity : worker.activity = .free)
      (herrands : worker.errands = errand :: errands) :
      Work S fs now worker w ({ worker with errands }.runErrand now errand) w
  | exits (hstopping : worker.stopping = true) : Work S fs now worker w { worker with activity := .exited } w
  | takes (m : Frames) (bus : Bus) (hawaits : worker.Awaits)
    (hpop : w.bus.pop? worker.socket = some (m, bus)) :
      Work S fs now worker w (if w.bus.accepts worker.socket m then worker.handle m else worker)
        { w with bus }

theorem work_of_step? (hstaff : worker.listeners = staff S fs)
    (h : worker.step? (Daemon.surroundings site) now w = some (worker', w')) :
    Work S fs now worker w worker' w' := by
  unfold Worker.step? at h
  split at h
  · cases h
  · cases h
  · next seat due call hactivity =>
    split at h
    · cases h
      exact .wakes seat due call hactivity
    · cases h
  · next seat call hactivity =>
    split at h
    · next hnone =>
      cases h
      refine .drops seat call hactivity ?_
      rintro side rfl
      cases (listener?_staff hstaff side).symm.trans hnone
    · next l hl =>
      obtain ⟨side, rfl, rfl⟩ := listener?_eq_some hstaff hl
      cases h
      exact .asks side call _ _ hactivity rfl
  · next hactivity =>
    split at h
    · next errand errands herrands =>
      cases h
      exact .begins errand errands hactivity herrands
    · next herrands =>
      split at h
      · next hstopping =>
        cases h
        exact .exits hstopping
      · next hgoing =>
        have hawaits : worker.Awaits := ⟨by simp [Worker.isFree, hactivity], herrands, by simpa using hgoing⟩
        simp only [Daemon.surroundings, within, Receipt.take, site] at h
        cases hpop : w.bus.pop? worker.socket with
        | none =>
          rw [hpop] at h
          cases h
        | some popped =>
          obtain ⟨m, after⟩ := popped
          have htakes : Work S fs now worker w _ { w with bus := after } := .takes m after hawaits hpop
          rw [hpop] at h
          cases haccepts : w.bus.accepts worker.socket m with
          | true =>
            rw [haccepts] at htakes
            simp only [haccepts, if_true] at h
            cases h
            exact htakes
          | false =>
            rw [haccepts] at htakes
            simp only [haccepts, Bool.false_eq_true, if_false] at h
            cases h
            exact htakes

theorem Stores.answer_keeps (S : Stores ν τ) (side : Side) (r : Request) (w : World ν τ) :
    ((S.host side).answer r w).2.chain = w.chain ∧ ((S.host side).answer r w).2.now = w.now := by
  cases side <;> cases r <;> exact ⟨rfl, rfl⟩

theorem listeners_runErrand (hstaff : worker.listeners = staff S fs) (now : Nat) (errand : Errand) :
    ∃ fs', (worker.runErrand now errand).listeners = staff S fs' := by
  unfold Worker.runErrand
  cases errand with
  | started seat =>
    simp only
    split
    · exact ⟨fs, hstaff⟩
    · next l hl =>
      obtain ⟨side, rfl, rfl⟩ := listener?_eq_some hstaff hl
      exact ⟨_, listeners_progressed hstaff side (fs side).started⟩
  | notified seat n =>
    simp only
    split
    · exact ⟨fs, hstaff⟩
    · next l hl =>
      obtain ⟨side, rfl, rfl⟩ := listener?_eq_some hstaff hl
      exact ⟨_, listeners_progressed hstaff side ((fs side).notified n)⟩

theorem Work.keeps (h : Work S fs now worker w worker' w') (hstaff : worker.listeners = staff S fs) :
    (w'.chain = w.chain ∧ w'.now = w.now) ∧ worker'.suppressed = worker.suppressed ∧
      ∃ fs', worker'.listeners = staff S fs' := by
  cases h with
  | wakes seat due call hactivity => exact ⟨⟨rfl, rfl⟩, rfl, fs, hstaff⟩
  | asks side call reply w' hactivity hreply =>
    have hanswer := S.answer_keeps side ((fs side).request call) w
    rw [hreply] at hanswer
    exact ⟨hanswer, (Worker.alike_progressed worker now side.seat _).1.suppressed, _,
      listeners_progressed hstaff side _⟩
  | drops seat call hactivity hseat => exact ⟨⟨rfl, rfl⟩, rfl, fs, hstaff⟩
  | begins errand errands hactivity herrands =>
    have htail : ({ worker with errands } : Worker (Hosted (World ν τ))).listeners = staff S fs := hstaff
    exact ⟨⟨rfl, rfl⟩, (Worker.alike_runErrand _ now errand).1.suppressed, listeners_runErrand htail now errand⟩
  | exits hstopping => exact ⟨⟨rfl, rfl⟩, rfl, fs, hstaff⟩
  | takes m bus hawaits hpop =>
    split
    · exact ⟨⟨rfl, rfl⟩, worker.suppressed_handle m, fs, (worker.listeners_handle m).trans hstaff⟩
    · exact ⟨⟨rfl, rfl⟩, rfl, fs, hstaff⟩

end Simulation

end ChainFollower
