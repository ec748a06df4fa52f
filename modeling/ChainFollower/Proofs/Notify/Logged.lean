import ChainFollower.Proofs.Notify.News

namespace ChainFollower

open News

/-- A listener with what it has been told, the earliest first. -/
structure Logged (L : Type) where
  listener : L
  told : List Notification

namespace Logged

variable {L τ : Type} [Listener L]

/-- It does what the listener does. -/
instance : Listener (Logged L) where
  Call := Listener.Call L
  Result := Listener.Result L
  Halt := Listener.Halt L
  Request := Listener.Request L
  Reply := Listener.Reply
  started l := (⟨(Listener.started l.listener).1, l.told⟩, (Listener.started l.listener).2)
  notified l n := (⟨(Listener.notified l.listener n).1, l.told ++ [n]⟩, (Listener.notified l.listener n).2)
  request l := Listener.request l.listener
  proceed l call reply :=
    (⟨(Listener.proceed l.listener call reply).1, l.told⟩, (Listener.proceed l.listener call reply).2)

def answer (answer : L → (r : Listener.Request L) → τ → Listener.Reply r × τ) :
    Logged L → (r : Listener.Request (Logged L)) → τ → Listener.Reply r × τ :=
  fun l r rest => answer l.listener r rest

/-- The listener at a place. -/
def at? (listeners : List (String × List (Logged L))) (seat : Seat) : Option (Logged L) :=
  (listeners.lookup seat.game).bind fun ls => ls[seat.index]?

/-- What the listener at a place has been told. -/
def heard (listeners : List (String × List (Logged L))) (seat : Seat) : List Notification :=
  ((at? listeners seat).map told).getD []

omit [Listener L] in
theorem at?_enlist (listeners : List (String × List (Logged L))) (game : String) (l : Logged L) (seat : Seat) :
    at? (Subscriber.enlist listeners game l) seat =
      if seat = ⟨game, headcount listeners game⟩ then some l else at? listeners seat := by
  obtain ⟨other, index⟩ := seat
  rw [at?, lookup_enlist, at?, headcount]
  simp only [Seat.mk.injEq]
  by_cases hgame : other = game
  · subst hgame
    rw [if_pos rfl, Option.bind_some]
    generalize hls : (listeners.lookup other).getD [] = ls
    have hat : (listeners.lookup other).bind (fun ls => ls[index]?) = ls[index]? := by
      rw [← hls]
      cases listeners.lookup other <;> simp
    rw [hat, List.getElem?_append]
    by_cases hlt : index < ls.length
    · rw [if_pos hlt, if_neg (fun h => Nat.ne_of_lt hlt h.2)]
    · by_cases heq : index = ls.length
      · simp [heq]
      · rw [if_neg hlt, if_neg (fun h => heq h.2), List.getElem?_eq_none (by simp; omega),
          List.getElem?_eq_none (by omega)]
  · rw [if_neg hgame, if_neg (fun h => hgame h.1)]

end Logged

namespace Worker

variable {L : Type} [Listener L] {w w' : Worker L}

theorem filterMap_round (w : Worker L) (n : Notification) :
    (w.round n).filterMap Errand.call? = callsOf (headcount w.listeners) n := by
  unfold round callsOf headcount
  rw [List.filterMap_map]
  exact congrFun (List.filterMap_eq_map' (f := fun index => ((⟨n.game, index⟩ : Seat), n))) _

theorem filterMap_call?_of_starts {errands : List Errand} (h : ∀ errand ∈ errands, ∃ seat, errand = .started seat) :
    errands.filterMap Errand.call? = [] := by
  refine List.filterMap_eq_nil_iff.mpr fun errand herrand => ?_
  obtain ⟨seat, rfl⟩ := h errand herrand
  rfl

theorem starts_start (socket : SocketId) (listeners : List (String × List L)) (tracker : SequenceTracker)
    (suppressed : Bool) :
    ∀ errand ∈ (start socket listeners tracker suppressed).errands, ∃ seat, errand = .started seat := by
  intro errand herrand
  simp only [start] at herrand
  split at herrand
  · cases herrand
  · obtain ⟨seat, _, rfl⟩ := List.mem_map.mp herrand
    exact ⟨seat, rfl⟩

theorem Reordered.due_eq (h : Reordered w w') : w'.due = [] ∧ w.due = [] := by
  obtain ⟨errands, hstarts, hperm⟩ := h
  exact ⟨filterMap_call?_of_starts fun errand herrand => hstarts errand (hperm.mem_iff.mp herrand),
    filterMap_call?_of_starts hstarts⟩

end Worker

namespace Worker

variable {L σ τ : Type} [Listener L] {w w' : Worker (Logged L)} {seat : Seat} {n : Notification}

def heard (w : Worker (Logged L)) (seat : Seat) : List Notification := Logged.heard w.listeners seat

theorem heard_eq (w : Worker (Logged L)) (seat : Seat) :
    w.heard seat = ((w.listener? seat).map Logged.told).getD [] := rfl

theorem heard_of_listeners (h : w'.listeners = w.listeners) (seat : Seat) : w'.heard seat = w.heard seat := by
  rw [heard, heard, h]

theorem heard_progressed (w : Worker (Logged L)) (now : Nat) {at_ : Seat} {l : Logged L}
    (hl : w.listener? at_ = some l)
    (step : Logged L × Progress (Listener.Call L) (Listener.Result L) (Listener.Halt L)) (seat : Seat) :
    (w.progressed now at_ step).heard seat = if seat = at_ then step.1.told else w.heard seat := by
  rw [heard_eq, listener?_progressed, hl]
  split <;> rfl

/-- A step that tells a listener nothing. -/
theorem heard_progressed_same (w : Worker (Logged L)) (now : Nat) {at_ : Seat} {l : Logged L}
    (hl : w.listener? at_ = some l)
    {step : Logged L × Progress (Listener.Call L) (Listener.Result L) (Listener.Halt L)}
    (hstep : step.1.told = l.told) (seat : Seat) :
    (w.progressed now at_ step).heard seat = w.heard seat := by
  rw [heard_progressed w now hl]
  split
  · next hseat =>
    rw [hseat, heard_eq, hl, hstep]
    rfl
  · rfl

/-- What is due to a listener is told to it, and nothing else. -/
theorem heard_runErrand (w : Worker (Logged L)) (now : Nat) (errand : Errand)
    (hseat : (w.listener? seat).isSome) :
    (w.runErrand now errand).heard seat = w.heard seat ++ told seat errand.call?.toList := by
  unfold runErrand
  cases errand with
  | started at_ =>
    rw [show told seat (Errand.started at_).call?.toList = [] from rfl, List.append_nil]
    simp only
    split
    · rfl
    · next hl => exact heard_progressed_same w now hl rfl seat
  | notified at_ n =>
    simp only [Errand.call?, Option.toList_some]
    split
    · next hnone =>
      have hne : at_ ≠ seat := by
        rintro rfl
        rw [hnone] at hseat
        cases hseat
      simp [told, hne]
    · next l hl =>
      rw [heard_progressed w now hl]
      by_cases hsame : seat = at_
      · subst hsame
        simp [told, heard_eq, hl, Listener.notified]
      · simp [told, hsame, Ne.symm hsame]

/-- A worker that takes no message tells its listeners what is due to them, in order. -/
theorem heard_step? {env : Surroundings (Logged L) σ} {now : Nat} {s s' : σ} (hbusy : ¬w.Awaits)
    (h : w.step? env now s = some (w', s')) (hseat : (w.listener? seat).isSome) :
    w'.heard seat ++ told seat w'.due = w.heard seat ++ told seat w.due := by
  unfold step? at h
  split at h
  · cases h
  · cases h
  · split at h
    · cases h
      rfl
    · cases h
  · next at_ call _ =>
    split at h
    · cases h
      rfl
    · next l hl =>
      cases h
      rw [heard_progressed_same w now hl rfl, due, (alike_progressed w now at_ _).2, due]
  · next hactivity =>
    split at h
    · next errand errands herrands =>
      cases h
      have hdue : w.due = errand.call?.toList ++ errands.filterMap Errand.call? := by
        rw [due, herrands, List.filterMap_cons]
        cases errand.call? <;> rfl
      rw [heard_runErrand { w with errands } now errand hseat, due, (alike_runErrand { w with errands } now errand).2,
        hdue, told_append, List.append_assoc]
      rfl
    · next herrands =>
      split at h
      · cases h
        rfl
      · next hgoing => exact absurd ⟨by simp [isFree, hactivity], herrands, by simpa using hgoing⟩ hbusy

/-- The same worker without what its listeners have been told. -/
def plain (w : Worker (Logged L)) : Worker L where
  socket := w.socket
  listeners := w.listeners.map fun (game, ls) => (game, ls.map Logged.listener)
  tracker := w.tracker
  suppressed := w.suppressed
  stopping := w.stopping
  errands := w.errands
  activity := w.activity

theorem lookup_plain (w : Worker (Logged L)) (game : String) :
    w.plain.listeners.lookup game = (w.listeners.lookup game).map fun ls => ls.map Logged.listener := by
  simp only [plain]
  induction w.listeners with
  | nil => rfl
  | cons entry rest ih =>
    obtain ⟨g, ls⟩ := entry
    rw [List.map_cons, List.lookup_cons, List.lookup_cons, ih]
    cases game == g <;> rfl

theorem listener?_plain (w : Worker (Logged L)) (seat : Seat) :
    w.plain.listener? seat = (w.listener? seat).map Logged.listener := by
  rw [listener?, lookup_plain, listener?]
  cases w.listeners.lookup seat.game <;> simp

theorem plain_progressed (w : Worker (Logged L)) (now : Nat) (seat : Seat)
    (step : Logged L × Progress (Listener.Call L) (Listener.Result L) (Listener.Halt L)) :
    (w.progressed now seat step).plain = w.plain.progressed now seat (step.1.listener, step.2) := by
  have hset : (w.setListener seat step.1).plain = w.plain.setListener seat step.1.listener := by
    simp only [plain, setListener, List.map_map]
    congr 1
    refine List.map_congr_left ?_
    rintro ⟨game, ls⟩ _
    by_cases hgame : game = seat.game <;> simp [hgame, List.map_set]
  unfold progressed
  simp only [← hset]
  cases step.2 <;> rfl

theorem plain_runErrand (w : Worker (Logged L)) (now : Nat) (errand : Errand) :
    (w.runErrand now errand).plain = w.plain.runErrand now errand := by
  unfold runErrand
  cases errand with
  | started seat =>
    simp only [listener?_plain]
    cases w.listener? seat with
    | none => rfl
    | some l => exact plain_progressed w now seat _
  | notified seat n =>
    simp only [listener?_plain]
    cases w.listener? seat with
    | none => rfl
    | some l => exact plain_progressed w now seat _

theorem plain_handle (w : Worker (Logged L)) (m : Frames) : (w.handle m).plain = w.plain.handle m := by
  have hchannel (x : Message) : w.plain.channel? x = w.channel? x := by
    simp only [channel?, lookup_plain]
    congr
    funext topic
    congr
    funext parsed
    cases w.listeners.lookup parsed.2 <;> rfl
  have hmessage : (Message.ofFrames m : Except (WorkerHalt (Listener.Halt (Logged L))) Message) =
      (Message.ofFrames m : Except (WorkerHalt (Listener.Halt L)) Message) := rfl
  unfold handle
  rw [hmessage]
  cases (Message.ofFrames m : Except (WorkerHalt (Listener.Halt L)) Message) with
  | error e => rfl
  | ok x =>
    simp only [hchannel]
    cases w.channel? x with
    | none => rfl
    | some c =>
      simp only
      cases Json.parse? x.payload with
      | none => rfl
      | some payload =>
        have hlength : ((w.plain.listeners.lookup c.game).getD []).length =
            ((w.listeners.lookup c.game).getD []).length := by
          rw [lookup_plain]
          cases w.listeners.lookup c.game <;> simp
        simp only [hlength]
        rfl

/-- To tell listeners and to note it down is to tell them. -/
theorem step?_plain (answer : L → (r : Listener.Request L) → τ → Listener.Reply r × τ) (now : Nat)
    (w : Worker (Logged L)) (s : Bus × τ) :
    w.plain.step? (.mail answer) now s =
      (w.step? (.mail (Logged.answer answer)) now s).map fun next => (next.1.plain, next.2) := by
  unfold step?
  rw [show w.plain.activity = w.activity from rfl]
  cases hactivity : w.activity with
  | exited => rfl
  | halted h => rfl
  | resting seat due call =>
    simp only
    split <;> rfl
  | asking seat call =>
    simp only [listener?_plain]
    cases w.listener? seat with
    | none => rfl
    | some l =>
      simp only [Option.map_some, plain_progressed]
      rfl
  | free =>
    simp only
    rw [show w.plain.errands = w.errands from rfl]
    cases w.errands with
    | cons errand errands =>
      simp only [Option.map_some, plain_runErrand]
      rfl
    | nil =>
      simp only
      rw [show w.plain.stopping = w.stopping from rfl]
      cases w.stopping with
      | true => rfl
      | false =>
        simp only [Bool.false_eq_true, if_false]
        rw [show w.plain.socket = w.socket from rfl]
        rw [show (Surroundings.mail answer).receive w.socket s =
          (Surroundings.mail (Logged.answer answer)).receive w.socket s from rfl]
        rcases (Surroundings.mail (Logged.answer answer)).receive w.socket s with ⟨receipt, s'⟩
        cases receipt with
        | message m => simp only [Option.map_some, plain_handle]
        | other => rfl
        | nothing => rfl
        | closed => rfl

end Worker

namespace Subscriber

variable {L : Type} [Listener L]

/-- The subscriber with listeners that have been told nothing yet. -/
def logged (s : Subscriber L) : Subscriber (Logged L) where
  suppressed := s.suppressed
  endpoint := s.endpoint
  listeners := s.listeners.map fun (game, ls) => (game, ls.map fun l => ⟨l, []⟩)
  tracker := s.tracker
  worker := none

theorem games_logged (s : Subscriber L) : s.logged.listeners.map Prod.fst = s.listeners.map Prod.fst := by
  rw [logged, List.map_map]
  rfl

theorem shape_logged (s : Subscriber L) :
    (s.logged.listeners.map fun (game, ls) => (game, ls.length)) =
      s.listeners.map fun (game, ls) => (game, ls.length) := by
  simp [logged, Function.comp_def]

theorem heard_logged (s : Subscriber L) (socket : SocketId) (seat : Seat) :
    (Worker.start socket s.logged.listeners s.tracker s.suppressed).heard seat = [] := by
  have hlookup : (s.logged.listeners.lookup seat.game) =
      (s.listeners.lookup seat.game).map fun ls => ls.map fun l => (⟨l, []⟩ : Logged L) := by
    simp only [logged]
    induction s.listeners with
    | nil => rfl
    | cons entry rest ih =>
      obtain ⟨g, ls⟩ := entry
      rw [List.map_cons, List.lookup_cons, List.lookup_cons, ih]
      cases seat.game == g <;> rfl
  rw [Worker.heard_eq, Worker.listener?, Worker.start, hlookup]
  cases s.listeners.lookup seat.game with
  | none => rfl
  | some ls => cases hl : ls[seat.index]? <;> simp [hl]

theorem plain_start (s : Subscriber L) (socket : SocketId) :
    (Worker.start socket s.logged.listeners s.tracker s.suppressed).plain =
      Worker.start socket s.listeners s.tracker s.suppressed := by
  simp [Worker.start, Worker.plain, logged, Worker.seats, List.flatMap_map, Function.comp_def]

theorem launch_logged {s s' : Subscriber L} {b b' : Bus} {w : Worker L} (h : s.launch b = .ok (s', b'))
    (hw : s'.worker = some w) :
    ∃ s₁ w₁, s.logged.launch b = .ok (s₁, b') ∧ s₁.worker = some w₁ ∧ w₁.plain = w := by
  unfold launch at h ⊢
  rw [games_logged, show s.logged.isStarted = false from rfl, show s.logged.endpoint = s.endpoint from rfl]
  split at h
  · cases h
  · cases hendpoint : s.endpoint with
    | none =>
      rw [hendpoint] at h
      cases h
    | some endpoint =>
      rw [hendpoint] at h
      simp only [Bool.false_eq_true, if_false] at h ⊢
      cases hconnect : b.connect endpoint with
      | error e =>
        rw [hconnect] at h
        cases h
      | ok connected =>
        rw [hconnect] at h
        cases h
        cases hw
        exact ⟨_, _, rfl, rfl, s.plain_start connected.1⟩

end Subscriber

/-- A listener that asks for something whenever it is told something. -/
structure Enquirer where

instance : Listener Enquirer where
  Call := Unit
  Result := Unit
  Halt := Empty
  Request := Unit
  Reply _ := Unit
  started l := (l, .returned ())
  notified l _ := (l, .asks ())
  request _ _ := ()
  proceed l _ _ := (l, .returned ())

end ChainFollower
