import ChainFollower.Proofs.Lookup
import ChainFollower.Proofs.Notify.Bus
import ChainFollower.Proofs.Notify.Topic
import ChainFollower.Proofs.Store.Record
import ChainFollower.Proofs.Text.Utf8

namespace ChainFollower

/-- A bus beside whatever else answers the calls of listeners. -/
def Surroundings.mail {L τ : Type} [Listener L]
    (answer : L → (r : Listener.Request L) → τ → Listener.Reply r × τ) : Surroundings L (Bus × τ) where
  answer l r s :=
    let (reply, rest) := answer l r s.2
    (reply, (s.1, rest))
  receive id s :=
    let (receipt, bus) := Receipt.take id s.1
    (receipt, (bus, s.2))

namespace SequenceTracker

variable {t : SequenceTracker} {c d : Channel} {seq : UInt32}

theorem last?_record : (t.record c seq).last? d = if d = c then some seq else t.last? d := by
  unfold record last?
  rw [lookup_cons_if]
  by_cases h : d = c
  · rw [if_pos h, if_pos h]
  · rw [if_neg h, if_neg h, lookup_filter_ne h]

end SequenceTracker

def Notification.channel (n : Notification) : Channel := ⟨n.game, n.kind⟩

/-- How many listeners a game has. -/
def headcount {L : Type} (listeners : List (String × List L)) (game : String) : Nat :=
  ((listeners.lookup game).getD []).length

theorem lookup_map_length {L : Type} (listeners : List (String × List L)) (game : String) :
    (listeners.map fun (game, ls) => (game, ls.length)).lookup game =
      (listeners.lookup game).map List.length := by
  induction listeners with
  | nil => rfl
  | cons entry rest ih =>
    obtain ⟨g, ls⟩ := entry
    rw [List.map_cons, List.lookup_cons, List.lookup_cons, ih]
    cases game == g <;> rfl

theorem lookup_enlist {L : Type} (listeners : List (String × List L)) (game other : String) (l : L) :
    (Subscriber.enlist listeners game l).lookup other =
      if other = game then some ((listeners.lookup game).getD [] ++ [l]) else listeners.lookup other := by
  induction listeners with
  | nil => exact lookup_cons_if other game [l] []
  | cons entry rest ih =>
    obtain ⟨g, ls⟩ := entry
    rw [Subscriber.enlist]
    by_cases hg : g = game
    · subst hg
      rw [if_pos rfl, lookup_cons_if, lookup_cons_if, lookup_cons_if, if_pos rfl]
      by_cases heq : other = g
      · rw [if_pos heq, if_pos heq]
        rfl
      · rw [if_neg heq, if_neg heq, if_neg heq]
    · have hgame : game ≠ g := fun heq => hg heq.symm
      rw [if_neg hg, lookup_cons_if, lookup_cons_if, lookup_cons_if, ih, if_neg hgame]
      by_cases heq : other = g
      · have hother : other ≠ game := fun h => hg (heq.symm.trans h)
        rw [if_pos heq, if_pos heq, if_neg hother]
      · rw [if_neg heq, if_neg heq]

theorem lookup_set {L : Type} (listeners : List (String × List L)) (seat : Seat) (l : L) (game : String) :
    (listeners.map fun (g, ls) => if g = seat.game then (g, ls.set seat.index l) else (g, ls)).lookup game =
      (listeners.lookup game).map fun ls => if game = seat.game then ls.set seat.index l else ls := by
  induction listeners with
  | nil => rfl
  | cons entry rest ih =>
    obtain ⟨g, ls⟩ := entry
    rw [List.map_cons]
    by_cases hg : game = g
    · subst hg
      by_cases hseat : game = seat.game
      · simp [hseat]
      · simp [hseat]
    · have hb : (game == g) = false := by simpa using hg
      by_cases hseat : g = seat.game
      · simp only [hseat, if_true] at hb ⊢
        rw [List.lookup_cons, List.lookup_cons, hb]
        exact ih
      · simp only [hseat, if_false]
        rw [List.lookup_cons, List.lookup_cons, hb]
        exact ih

/-- The call that an errand is for. -/
def Errand.call? : Errand → Option (Seat × Notification)
  | .notified seat n => some (seat, n)
  | .started _ => none

namespace Worker

variable {L τ : Type} [Listener L] {w w' : Worker L} {frames : Frames} {n : Notification}

/-- The notification that a message is taken for, if it is taken for one. -/
def notice? (w : Worker L) (frames : Frames) : Option Notification :=
  match (Message.ofFrames frames : Except (WorkerHalt (Listener.Halt L)) Message) with
  | .error _ => none
  | .ok m => (w.channel? m).bind fun c => (Json.parse? m.payload).map fun payload =>
      ⟨c.game, c.kind, payload, m.seq, w.tracker.mismatch c m.seq⟩

/-- One call for every listener of the game, in order. -/
def round (w : Worker L) (n : Notification) : List Errand :=
  (List.range ((w.listeners.lookup n.game).getD []).length).map fun index => .notified ⟨n.game, index⟩ n

theorem handle_of_notice (h : w.notice? frames = some n) :
    w.handle frames = { w with
      tracker := w.tracker.record n.channel n.seq
      errands := if w.suppressed then [] else w.round n } := by
  unfold notice? at h
  unfold handle
  cases hm : (Message.ofFrames frames : Except (WorkerHalt (Listener.Halt L)) Message) with
  | error e =>
    rw [hm] at h
    cases h
  | ok m =>
    rw [hm] at h
    obtain ⟨c, hc, hn⟩ := Option.bind_eq_some_iff.mp h
    obtain ⟨payload, hpayload, rfl⟩ := Option.map_eq_some_iff.mp hn
    simp only [hc, hpayload, SequenceTracker.annotate, Notification.channel, round]

theorem handle_of_no_notice (h : w.notice? frames = none) :
    w.handle frames = { w with activity := (w.handle frames).activity } := by
  unfold notice? at h
  unfold handle
  cases hm : (Message.ofFrames frames : Except (WorkerHalt (Listener.Halt L)) Message) with
  | error e => rfl
  | ok m =>
    rw [hm] at h
    simp only at h ⊢
    cases hc : w.channel? m with
    | none => rfl
    | some c =>
      rw [hc, Option.bind_some, Option.map_eq_none_iff] at h
      simp only [h]

/-- The calls with notifications that are due. -/
def due (w : Worker L) : List (Seat × Notification) := w.errands.filterMap Errand.call?

/-- Where listeners are yet to hear of the start, they may do so in any order of games. -/
inductive Reordered (w : Worker L) : Worker L → Prop
  | mk (errands : List Errand) (hstarts : ∀ errand ∈ w.errands, ∃ seat, errand = .started seat)
      (hperm : errands.Perm w.errands) : Reordered w { w with errands }

/-- Nothing is due but the next message. -/
def Awaits (w : Worker L) : Prop := w.isFree = true ∧ w.errands = [] ∧ w.stopping = false

theorem activity_of_isFree (h : w.isFree = true) : w.activity = .free := by
  unfold isFree at h
  split at h
  · next hactivity => exact hactivity
  · cases h

theorem not_awaits_of_busy (h : w.isFree = false) : ¬w.Awaits := by
  rintro ⟨hfree, _⟩
  rw [h] at hfree
  cases hfree

/-- How many listeners every game has. -/
def shape (w : Worker L) : List (String × Nat) := w.listeners.map fun (game, ls) => (game, ls.length)

/-- The two have the same socket, mode, numbers and places for listeners. -/
structure Alike (w w' : Worker L) : Prop where
  socket : w'.socket = w.socket
  suppressed : w'.suppressed = w.suppressed
  stopping : w'.stopping = w.stopping
  tracker : w'.tracker = w.tracker
  shape : w'.shape = w.shape

theorem Alike.refl (w : Worker L) : Alike w w := ⟨rfl, rfl, rfl, rfl, rfl⟩

theorem Alike.trans {w'' : Worker L} (h : Alike w w') (h' : Alike w' w'') : Alike w w'' :=
  ⟨h'.socket.trans h.socket, h'.suppressed.trans h.suppressed, h'.stopping.trans h.stopping,
    h'.tracker.trans h.tracker, h'.shape.trans h.shape⟩

theorem shape_setListener (w : Worker L) (seat : Seat) (l : L) :
    (w.setListener seat l).shape = w.shape := by
  unfold shape setListener
  rw [List.map_map]
  refine List.map_congr_left ?_
  rintro ⟨game, ls⟩ _
  simp only [Function.comp_apply]
  split
  · rw [List.length_set]
  · rfl

theorem games_of_shape {L' : Type} {listeners : List (String × List L')}
    (h : w.shape = listeners.map fun (game, ls) => (game, ls.length)) :
    w.listeners.map Prod.fst = listeners.map Prod.fst := by
  simpa [shape, Function.comp_def] using congrArg (List.map Prod.fst) h

theorem isSome_lookup_iff (w : Worker L) (game : String) :
    (w.listeners.lookup game).isSome ↔ game ∈ w.listeners.map Prod.fst := by
  rw [List.lookup_isSome_iff, List.mem_map]
  constructor
  · rintro ⟨entry, hentry, heq⟩
    exact ⟨entry, hentry, (eq_of_beq heq).symm⟩
  · rintro ⟨entry, hentry, rfl⟩
    exact ⟨entry, hentry, BEq.rfl⟩

theorem headcount_eq_lookup (w : Worker L) (game : String) :
    headcount w.listeners game = (w.shape.lookup game).getD 0 := by
  rw [shape, lookup_map_length, headcount]
  cases w.listeners.lookup game <;> rfl

/-- What the number of listeners of each game tells. -/
theorem headcount_of_shape {L' : Type} {listeners : List (String × List L')}
    (h : w.shape = listeners.map fun (game, ls) => (game, ls.length)) (game : String) :
    ((w.listeners.lookup game).isSome ↔ game ∈ listeners.map Prod.fst) ∧
      headcount w.listeners game = headcount listeners game := by
  refine ⟨?_, ?_⟩
  · rw [isSome_lookup_iff, games_of_shape h]
  · rw [headcount_eq_lookup, h, lookup_map_length, headcount]
    cases listeners.lookup game <;> rfl

theorem isSome_listener? (w : Worker L) (seat : Seat) :
    (w.listener? seat).isSome ↔ seat.index < headcount w.listeners seat.game := by
  unfold listener? headcount
  cases w.listeners.lookup seat.game with
  | none => simp
  | some ls => simp

theorem listener?_setListener (w : Worker L) (seat other : Seat) (l : L) :
    (w.setListener seat l).listener? other =
      if other = seat then (w.listener? seat).map fun _ => l else w.listener? other := by
  unfold listener? setListener
  rw [lookup_set]
  obtain ⟨game, index⟩ := seat
  obtain ⟨game', index'⟩ := other
  simp only [Seat.mk.injEq]
  by_cases hgame : game' = game
  · subst hgame
    cases hls : w.listeners.lookup game' with
    | none => simp
    | some ls =>
      by_cases hindex : index' = index
      · subst hindex
        by_cases hlt : index' < ls.length <;> simp [hlt]
      · simp [hindex, List.getElem?_set_ne (Ne.symm hindex)]
  · cases w.listeners.lookup game' <;> simp [hgame]

theorem listener?_progressed (w : Worker L) (now : Nat) (seat other : Seat)
    (step : L × Progress (Listener.Call L) (Listener.Result L) (Listener.Halt L)) :
    (w.progressed now seat step).listener? other =
      if other = seat then (w.listener? seat).map fun _ => step.1 else w.listener? other := by
  rw [← listener?_setListener]
  unfold progressed
  simp only
  split <;> rfl

theorem alike_progressed (w : Worker L) (now : Nat) (seat : Seat)
    (step : L × Progress (Listener.Call L) (Listener.Result L) (Listener.Halt L)) :
    Alike w (w.progressed now seat step) ∧ (w.progressed now seat step).errands = w.errands := by
  unfold progressed
  simp only
  split <;> exact ⟨⟨rfl, rfl, rfl, rfl, shape_setListener w seat step.1⟩, rfl⟩

theorem alike_runErrand (w : Worker L) (now : Nat) (errand : Errand) :
    Alike w (w.runErrand now errand) ∧ (w.runErrand now errand).errands = w.errands := by
  unfold runErrand
  cases errand with
  | started seat =>
    simp only
    split
    · exact ⟨.refl w, rfl⟩
    · exact alike_progressed w now seat _
  | notified seat n =>
    simp only
    split
    · exact ⟨.refl w, rfl⟩
    · exact alike_progressed w now seat _

theorem step?_cases {answer : L → (r : Listener.Request L) → τ → Listener.Reply r × τ} {now : Nat}
    {bus bus' : Bus} {rest rest' : τ}
    (h : step? (.mail answer) now w (bus, rest) = some (w', (bus', rest'))) :
    (w.Awaits ∧ rest' = rest ∧ ∃ m, bus.pop? w.socket = some (m, bus') ∧
      w' = if bus.accepts w.socket m then w.handle m else w) ∨
    (¬w.Awaits ∧ bus' = bus ∧ Alike w w' ∧
      w'.errands = if w.isFree then w.errands.tail else w.errands) := by
  unfold step? at h
  split at h
  · cases h
  · cases h
  · next seat due call hactivity =>
    have hfree : w.isFree = false := by simp [isFree, hactivity]
    split at h
    · cases h
      exact .inr ⟨not_awaits_of_busy hfree, rfl, ⟨rfl, rfl, rfl, rfl, rfl⟩, by simp [hfree]⟩
    · cases h
  · next seat call hactivity =>
    have hfree : w.isFree = false := by simp [isFree, hactivity]
    have hbusy := not_awaits_of_busy hfree
    split at h
    · cases h
      exact .inr ⟨hbusy, rfl, ⟨rfl, rfl, rfl, rfl, rfl⟩, by simp [hfree]⟩
    · next l hl =>
      cases h
      obtain ⟨halike, herrands⟩ := alike_progressed w now seat
        (Listener.proceed l call ((Surroundings.mail answer).answer l (Listener.request l call) (bus, rest)).1)
      refine .inr ⟨hbusy, rfl, halike, ?_⟩
      rw [hfree]
      exact herrands
  · next hactivity =>
    have hfree : w.isFree = true := by simp [isFree, hactivity]
    split at h
    · next errand errands herrands =>
      cases h
      obtain ⟨halike, htail⟩ := alike_runErrand { w with errands } now errand
      refine .inr ⟨?_, rfl, ⟨halike.socket, halike.suppressed, halike.stopping, halike.tracker,
        halike.shape⟩, ?_⟩
      · rintro ⟨_, hnone, _⟩
        rw [herrands] at hnone
        cases hnone
      · rw [hfree, htail, herrands]
        rfl
    · next herrands =>
      split at h
      · next hstopping =>
        cases h
        refine .inr ⟨?_, rfl, ⟨rfl, rfl, rfl, rfl, rfl⟩, by simp [herrands]⟩
        rintro ⟨_, _, hgoing⟩
        rw [hstopping] at hgoing
        cases hgoing
      · next hgoing =>
        have hawaits : w.Awaits := ⟨hfree, herrands, by simpa using hgoing⟩
        simp only [Surroundings.mail, Receipt.take] at h
        cases hpop : bus.pop? w.socket with
        | none =>
          rw [hpop] at h
          cases h
        | some popped =>
          obtain ⟨m, after⟩ := popped
          rw [hpop] at h
          refine .inl ⟨hawaits, ?_⟩
          by_cases haccepts : bus.accepts w.socket m = true
          · simp only [haccepts, if_true] at h
            cases h
            exact ⟨rfl, m, rfl, by rw [if_pos haccepts]⟩
          · simp only [haccepts, Bool.false_eq_true, if_false] at h
            cases h
            exact ⟨rfl, m, rfl, by rw [if_neg haccepts]⟩

/-- A message makes the worker halt or leaves it doing what it does. -/
theorem activity_handle (w : Worker L) (m : Frames) :
    (w.handle m).activity = w.activity ∨ (w.handle m).finished = true := by
  unfold handle
  split
  · exact .inr rfl
  · split
    · exact .inl rfl
    · split
      · exact .inr rfl
      · exact .inl rfl

theorem activity_handle_of_going {m : Frames} (h : (w.handle m).finished = false) :
    (w.handle m).activity = w.activity :=
  (w.activity_handle m).resolve_right (by simp [h])

theorem exists_handle_eq (w : Worker L) (m : Frames) :
    ∃ tracker errands activity, w.handle m = { w with tracker, errands, activity } := by
  cases h : w.notice? m with
  | none => exact ⟨w.tracker, w.errands, (w.handle m).activity, handle_of_no_notice h⟩
  | some n => exact ⟨_, _, w.activity, handle_of_notice h⟩

theorem socket_handle (w : Worker L) (m : Frames) : (w.handle m).socket = w.socket := by
  obtain ⟨tracker, errands, activity, h⟩ := w.exists_handle_eq m
  rw [h]

theorem listeners_handle (w : Worker L) (m : Frames) : (w.handle m).listeners = w.listeners := by
  obtain ⟨tracker, errands, activity, h⟩ := w.exists_handle_eq m
  rw [h]

theorem suppressed_handle (w : Worker L) (m : Frames) : (w.handle m).suppressed = w.suppressed := by
  obtain ⟨tracker, errands, activity, h⟩ := w.exists_handle_eq m
  rw [h]

theorem progressed_ne_exited (w : Worker L) (now : Nat) (seat : Seat)
    (step : L × Progress (Listener.Call L) (Listener.Result L) (Listener.Halt L)) :
    (w.progressed now seat step).activity ≠ .exited := by
  unfold progressed
  simp only
  split <;> exact nofun

/-- A worker exits when it has nothing left to do. -/
theorem errands_of_exited {σ : Type} {env : Surroundings L σ} {now : Nat} {s s' : σ} (hbusy : ¬w.Awaits)
    (h : w.step? env now s = some (w', s')) (hexited : w'.activity = .exited) : w'.errands = [] := by
  unfold step? at h
  split at h
  · cases h
  · cases h
  · split at h
    · cases h
      cases hexited
    · cases h
  · split at h
    · cases h
      cases hexited
    · cases h
      exact absurd hexited (progressed_ne_exited w now _ _)
  · next hactivity =>
    split at h
    · next errand errands _ =>
      cases h
      exfalso
      unfold runErrand at hexited
      cases errand with
      | started seat =>
        simp only at hexited
        split at hexited
        · cases hactivity.symm.trans hexited
        · exact progressed_ne_exited _ now _ _ hexited
      | notified seat n =>
        simp only at hexited
        split at hexited
        · cases hactivity.symm.trans hexited
        · exact progressed_ne_exited _ now _ _ hexited
    · next herrands =>
      split at h
      · cases h
        exact herrands
      · next hgoing => exact absurd ⟨by simp [isFree, hactivity], herrands, by simpa using hgoing⟩ hbusy

/-- A worker that waits takes the first message of its socket. -/
theorem step?_of_pop (answer : L → (r : Listener.Request L) → τ → Listener.Reply r × τ) {bus bus' : Bus}
    (rest : τ) {m : Frames} (now : Nat) (h : w.Awaits) (hpop : bus.pop? w.socket = some (m, bus')) :
    w.step? (.mail answer) now (bus, rest) =
      some (if bus.accepts w.socket m then w.handle m else w, (bus', rest)) := by
  obtain ⟨hfree, herrands, hgoing⟩ := h
  have hactivity := activity_of_isFree hfree
  cases haccepts : bus.accepts w.socket m with
  | true =>
    simp only [step?, hactivity, herrands, hgoing, Surroundings.mail, Receipt.take, hpop, haccepts,
      Bool.false_eq_true, if_false, if_true]
  | false =>
    simp only [step?, hactivity, herrands, hgoing, Surroundings.mail, Receipt.take, hpop, haccepts,
      Bool.false_eq_true, if_false]

end Worker

end ChainFollower
