import ChainFollower.Proofs.Notify.Logged

namespace ChainFollower

open News

/-- What listens never breaks down. -/
structure Listener.Gentle (L : Type) [Listener L] : Prop where
  started : ∀ (l : L) (h : Listener.Halt L), (Listener.started l).2 ≠ .halted h
  notified : ∀ (l : L) (n : Notification) (h : Listener.Halt L), (Listener.notified l n).2 ≠ .halted h
  proceed : ∀ (l : L) (call : Listener.Call L) (reply : Listener.Reply (Listener.request l call))
    (h : Listener.Halt L), (Listener.proceed l call reply).2 ≠ .halted h

theorem Listener.Gentle.logged {L : Type} [Listener L] (h : Listener.Gentle L) : Listener.Gentle (Logged L) where
  started l := h.started l.listener
  notified l n := h.notified l.listener n
  proceed l call reply := h.proceed l.listener call reply

namespace Worker

variable {L τ : Type} [Listener L] {w w' : Worker L} {m : Frames} {games : List String}

theorem channel?_eq (hgames : ∀ game, (w.listeners.lookup game).isSome ↔ game ∈ games) (m : Message) :
    w.channel? m = (channels games).find? fun c => c.topic == m.topic := by
  refine Option.ext fun c => ?_
  rw [find?_channels]
  unfold channel?
  simp only [Option.bind_eq_bind, Option.bind_eq_some_iff]
  constructor
  · rintro ⟨topic, htopic, ⟨kind, game⟩, hparse, ls, hls, hc⟩
    cases hc
    refine ⟨(hgames game).mp (by rw [hls]; rfl), ?_⟩
    rw [← Utf8.encode_of_decode htopic, Topic.text_of_parse? hparse]
    rfl
  · rintro ⟨hgame, htopic⟩
    obtain ⟨ls, hls⟩ := Option.isSome_iff_exists.mp ((hgames c.game).mpr hgame)
    refine ⟨Topic.text c.kind c.game, ?_, (c.kind, c.game), Topic.parse?_text c.kind c.game, ls, hls, rfl⟩
    rw [← htopic]
    exact Utf8.decode?_encode _

theorem mismatch_eq (t : SequenceTracker) (c : Channel) (seq : UInt32) :
    t.mismatch c seq = (t.last? c).any fun before => before + 1 != seq := by
  unfold SequenceTracker.mismatch
  cases t.last? c <;> rfl

theorem ofFrames_of_length {topic text number : Bytes} (h : number.length = 4) :
    (Message.ofFrames [topic, text, number] : Except (WorkerHalt (Listener.Halt L)) Message) =
      .ok ⟨topic, text, UInt32.ofNat (Bytes.toNat number)⟩ := by
  match number, h with
  | [a, b, c, d], _ => rfl

theorem notice?_eq_read? (hm : WellFormed games m)
    (hgames : ∀ game, (w.listeners.lookup game).isSome ↔ game ∈ games) :
    w.notice? m = (read? games m).map (notification w.tracker.last?) := by
  obtain ⟨topic, text, number, rfl, hlength, _⟩ := hm
  unfold notice? read?
  rw [ofFrames_of_length hlength]
  simp only [channel?_eq hgames, Option.map_bind, mismatch_eq]
  refine congrArg (Option.bind _) ?_
  funext c
  simp only [Function.comp_apply, Option.map_map]
  rfl

theorem handle_of_unread (hm : WellFormed games m)
    (hgames : ∀ game, (w.listeners.lookup game).isSome ↔ game ∈ games) (hread : read? games m = none) :
    w.handle m = w := by
  obtain ⟨topic, text, number, rfl, hlength, htext⟩ := hm
  unfold handle
  rw [ofFrames_of_length hlength]
  simp only [channel?_eq hgames]
  cases hc : (channels games).find? fun c => c.topic == topic with
  | none => rfl
  | some c =>
    obtain ⟨hgame, rfl⟩ := find?_channels.mp hc
    obtain ⟨payload, hpayload⟩ := htext c (mem_channels.mpr hgame) rfl
    rw [read?, hc, Option.bind_some, hpayload] at hread
    cases hread

theorem finished_progressed {now : Nat} {seat : Seat}
    {step : L × Progress (Listener.Call L) (Listener.Result L) (Listener.Halt L)}
    (h : ∀ x, step.2 ≠ .halted x) : (w.progressed now seat step).finished = false := by
  unfold progressed finished
  simp only
  cases hstep : step.2 with
  | asks call => rfl
  | rests d call => rfl
  | returned r => rfl
  | halted x => exact absurd hstep (h x)

theorem finished_runErrand (hgentle : Listener.Gentle L) (hfinished : w.finished = false) (now : Nat)
    (errand : Errand) : (w.runErrand now errand).finished = false := by
  unfold runErrand
  cases errand with
  | started seat =>
    simp only
    split
    · exact hfinished
    · next l _ => exact finished_progressed (hgentle.started l)
  | notified seat n =>
    simp only
    split
    · exact hfinished
    · next l _ => exact finished_progressed (hgentle.notified l n)

/-- A worker that takes no message and was not told to stop goes on. -/
theorem finished_step? {answer : L → (r : Listener.Request L) → τ → Listener.Reply r × τ} {now : Nat}
    {bus bus' : Bus} {rest rest' : τ} (hgentle : Listener.Gentle L) (hbusy : ¬w.Awaits)
    (hgoing : w.stopping = false)
    (h : step? (.mail answer) now w (bus, rest) = some (w', (bus', rest'))) : w'.finished = false := by
  unfold step? at h
  split at h
  · cases h
  · cases h
  · split at h
    · cases h
      rfl
    · cases h
  · split at h
    · cases h
      rfl
    · next l _ =>
      cases h
      exact finished_progressed (hgentle.proceed l _ _)
  · next hactivity =>
    split at h
    · next errand errands _ =>
      cases h
      exact finished_runErrand hgentle (by simp [finished, hactivity]) now errand
    · next herrands => exact absurd ⟨by simp [isFree, hactivity], herrands, hgoing⟩ hbusy

/-- What a busy worker has yet to tell becomes less. -/
theorem due_step? {answer : L → (r : Listener.Request L) → τ → Listener.Reply r × τ} {now : Nat} {bus bus' : Bus}
    {rest rest' : τ} (hbusy : ¬w.Awaits) (h : step? (.mail answer) now w (bus, rest) = some (w', (bus', rest'))) :
    w'.due <:+ w.due := by
  rcases step?_cases h with ⟨hawaits, _⟩ | ⟨_, _, _, herrands⟩
  · exact absurd hawaits hbusy
  · rw [due, due, herrands]
    split
    · exact (List.tail_suffix _).filterMap _
    · exact List.suffix_rfl

end Worker

/-- A worker with its bus, and the messages that were published on its endpoint since it began, the earliest
first. -/
structure Wire (L : Type) [Listener L] (τ : Type) where
  worker : Worker L
  bus : Bus
  rest : τ
  sent : List Frames

namespace Wire

variable {L τ : Type} [Listener L]

/-- Anybody publishes, the worker does something, or others use the bus without touching its socket. -/
inductive Step (answer : L → (r : Listener.Request L) → τ → Listener.Reply r × τ) (endpoint : String)
    (games : List String) : Wire L τ → Wire L τ → Prop
  | publish {p : Wire L τ} (m : Frames) (hm : WellFormed games m) :
      Step answer endpoint games p { p with
        bus := (p.bus.publish endpoint m).2
        sent := p.sent ++ [m] }
  | work {p : Wire L τ} {w : Worker L} {bus : Bus} {rest : τ} (now : Nat)
      (h : p.worker.step? (.mail answer) now (p.bus, p.rest) = some (w, (bus, rest))) :
      Step answer endpoint games p { p with worker := w, bus, rest }
  | reorder {p : Wire L τ} {w : Worker L} (h : p.worker.Reordered w) :
      Step answer endpoint games p { p with worker := w }
  | others {p : Wire L τ} {bus : Bus}
      (h : bus.socket? p.worker.socket = p.bus.socket? p.worker.socket) :
      Step answer endpoint games p { p with bus }

/-- Everything that can come of the launch of a subscriber. -/
inductive Reached (answer : L → (r : Listener.Request L) → τ → Listener.Reply r × τ)
    (s : Subscriber L) (endpoint : String) : Wire L τ → Prop
  | launch {s' : Subscriber L} {ground bus : Bus} {w : Worker L} (rest : τ) (hfresh : ground.Fresh)
      (hendpoint : s.endpoint = some endpoint) (h : s.launch ground = .ok (s', bus))
      (hw : s'.worker = some w) : Reached answer s endpoint ⟨w, bus, rest, []⟩
  | step {p p' : Wire L τ} : Reached answer s endpoint p →
      Step answer endpoint (s.listeners.map Prod.fst) p p' → Reached answer s endpoint p'

/-- What every step keeps. The messages up to those in the queue have been taken. -/
structure Kept (s : Subscriber L) (endpoint : String) (p : Wire (Logged L) τ) : Prop where
  suppressed : p.worker.suppressed = false
  stopping : p.worker.stopping = false
  finished : p.worker.finished = false
  shape : p.worker.shape = s.listeners.map fun (game, ls) => (game, ls.length)
  formed : ∀ m ∈ p.sent, WellFormed (s.listeners.map Prod.fst) m
  turn : ∃ n, p.worker.due <:+ callsOf (headcount s.listeners) n
  taken : ∃ sock done, p.bus.socket? p.worker.socket = some sock ∧ sock.endpoint = endpoint ∧
    sock.subscriptions = (Subscriber.topics (s.listeners.map Prod.fst)).map Utf8.encode ∧
    p.sent = done ++ sock.queue ∧
    (∀ seat : Seat, seat.index < headcount s.listeners seat.game →
      p.worker.heard seat ++ told seat p.worker.due =
        told seat (expected (headcount s.listeners) (s.listeners.map Prod.fst) s.tracker.last? done)) ∧
    p.worker.tracker.last? =
      (done.filterMap (read? (s.listeners.map Prod.fst))).foldl record s.tracker.last?

variable {answer : L → (r : Listener.Request L) → τ → Listener.Reply r × τ} {s : Subscriber L}
  {endpoint : String} {p p' : Wire (Logged L) τ}

theorem kept_launch (hs : s.suppressed = false) {s' : Subscriber (Logged L)} {ground bus : Bus}
    {w : Worker (Logged L)} (rest : τ) (hfresh : ground.Fresh) (hendpoint : s.endpoint = some endpoint)
    (h : s.logged.launch ground = .ok (s', bus)) (hw : s'.worker = some w) :
    Kept s endpoint ⟨w, bus, rest, []⟩ := by
  obtain ⟨endpoint', _, hendpoint', rfl, _, _, hsocket⟩ := Subscriber.launch_eq_ok hfresh h
  cases hw
  obtain rfl := Option.some.inj (hendpoint.symm.trans hendpoint')
  have hdue : (Worker.start ground.nextId s.logged.listeners s.tracker s.suppressed).due = [] :=
    Worker.filterMap_call?_of_starts (Worker.starts_start ground.nextId s.logged.listeners s.tracker s.suppressed)
  rw [Subscriber.games_logged] at hsocket
  refine ⟨hs, rfl, rfl, s.shape_logged, nofun, ⟨⟨"", .attach, .null, 0, false⟩, ?_⟩, _, [], hsocket, rfl, rfl, rfl,
    fun seat _ => ?_, rfl⟩
  · exact hdue.symm ▸ List.nil_suffix
  · exact congrArg₂ (· ++ ·) (s.heard_logged ground.nextId seat) (congrArg (told seat) hdue)

theorem Kept.publish (h : p.Kept s endpoint) {m : Frames}
    (hm : WellFormed (s.listeners.map Prod.fst) m) :
    Kept s endpoint { p with bus := (p.bus.publish endpoint m).2, sent := p.sent ++ [m] } := by
  obtain ⟨sock, done, hsock, hendpoint, hsubs, hsent, htold, htracker⟩ := h.taken
  have hnew : (p.bus.publish endpoint m).2.socket? p.worker.socket =
      some { sock with queue := sock.queue ++ [m] } := by
    rw [Bus.socket?_publish, hsock, Option.map_some, if_pos hendpoint]
  refine { h with
    formed := ?_
    taken := ⟨_, done, hnew, hendpoint, hsubs, by simp only [hsent, List.append_assoc], htold, htracker⟩ }
  intro m' hm'
  rcases List.mem_append.mp hm' with hold | hlast
  · exact h.formed m' hold
  · exact List.mem_singleton.mp hlast ▸ hm

theorem Kept.others (h : p.Kept s endpoint) {bus : Bus}
    (hb : bus.socket? p.worker.socket = p.bus.socket? p.worker.socket) :
    Kept s endpoint { p with bus } := by
  obtain ⟨sock, done, hsock, hrest⟩ := h.taken
  exact { h with taken := ⟨sock, done, hb.trans hsock, hrest⟩ }

theorem Kept.reorder (h : p.Kept s endpoint) {w : Worker (Logged L)} (hw : p.worker.Reordered w) :
    Kept s endpoint { p with worker := w } := by
  obtain ⟨hnew, hold⟩ := hw.due_eq
  obtain ⟨errands, hstarts, hperm⟩ := hw
  obtain ⟨sock, done, hsock, hendpoint, hsubs, hsent, htold, htracker⟩ := h.taken
  refine { h with
    turn := ?_
    taken := ⟨sock, done, hsock, hendpoint, hsubs, hsent, fun seat hseat => ?_, htracker⟩ }
  · obtain ⟨n, hn⟩ := h.turn
    exact ⟨n, (hnew.trans hold.symm) ▸ hn⟩
  · rw [← htold seat hseat, hnew, hold]
    rfl

theorem Kept.registered (h : p.Kept s endpoint) (game : String) :
    (p.worker.listeners.lookup game).isSome ↔ game ∈ s.listeners.map Prod.fst :=
  (Worker.headcount_of_shape h.shape game).1

theorem Kept.headcount_eq (h : p.Kept s endpoint) :
    headcount p.worker.listeners = headcount s.listeners :=
  funext fun game => (Worker.headcount_of_shape h.shape game).2

/-- The first message of the queue concerns nobody here. -/
theorem Kept.pass (h : p.Kept s endpoint) {m : Frames} {bus : Bus}
    (hpop : p.bus.pop? p.worker.socket = some (m, bus))
    (hread : read? (s.listeners.map Prod.fst) m = none) :
    Kept s endpoint { p with bus } := by
  obtain ⟨sock, done, hsock, hendpoint, hsubs, hsent, htold, htracker⟩ := h.taken
  obtain ⟨sock', queue, hsock', hqueue, rfl⟩ := Bus.pop?_eq_some hpop
  obtain rfl := Option.some.inj (hsock.symm.trans hsock')
  have hnew := Bus.socket?_modify p.bus p.worker.socket p.worker.socket
    (fun s => { s with queue }) fun _ => rfl
  rw [if_pos rfl, hsock, Option.map_some] at hnew
  refine { h with taken := ⟨_, done ++ [m], hnew, hendpoint, hsubs, ?_, fun seat hseat => ?_, ?_⟩ }
  · rw [hsent, hqueue, List.append_assoc]
    rfl
  · rw [htold seat hseat, expected_concat, hread]
    exact congrArg (told seat) (List.append_nil _).symm
  · rw [htracker, List.filterMap_append]
    simp [hread]

/-- The first message of the queue is taken for a notification. -/
theorem Kept.handle (h : p.Kept s endpoint) (hawaits : p.worker.Awaits) {m : Frames} {bus : Bus}
    {x : News} (hpop : p.bus.pop? p.worker.socket = some (m, bus))
    (hm : WellFormed (s.listeners.map Prod.fst) m)
    (hread : read? (s.listeners.map Prod.fst) m = some x) :
    Kept s endpoint { p with worker := p.worker.handle m, bus } := by
  obtain ⟨sock, done, hsock, hendpoint, hsubs, hsent, htold, htracker⟩ := h.taken
  obtain ⟨sock', queue, hsock', hqueue, rfl⟩ := Bus.pop?_eq_some hpop
  obtain rfl := Option.some.inj (hsock.symm.trans hsock')
  have hnotice : p.worker.notice? m = some (notification p.worker.tracker.last? x) := by
    rw [Worker.notice?_eq_read? hm h.registered, hread, Option.map_some]
  have hnew := Bus.socket?_modify p.bus p.worker.socket p.worker.socket
    (fun s => { s with queue }) fun _ => rfl
  rw [if_pos rfl, hsock, Option.map_some] at hnew
  have hdue : (p.worker.handle m).due =
      callsOf (headcount s.listeners) (notification p.worker.tracker.last? x) := by
    rw [Worker.handle_of_notice hnotice, h.suppressed, ← h.headcount_eq]
    exact Worker.filterMap_round p.worker _
  have hbefore : p.worker.due = [] := by
    rw [Worker.due, hawaits.2.1]
    rfl
  have hheard (seat : Seat) : (p.worker.handle m).heard seat = p.worker.heard seat :=
    Worker.heard_of_listeners (p.worker.listeners_handle m) seat
  refine ⟨(p.worker.suppressed_handle m).trans h.suppressed, ?_, ?_, ?_, h.formed,
    ⟨notification p.worker.tracker.last? x, ?_⟩, { sock with queue }, done ++ [m], ?_, hendpoint, hsubs, ?_, fun seat hseat => ?_, ?_⟩
  · rw [Worker.handle_of_notice hnotice]
    exact h.stopping
  · rw [Worker.handle_of_notice hnotice]
    exact h.finished
  · rw [Worker.handle_of_notice hnotice]
    exact h.shape
  · exact hdue ▸ List.suffix_rfl
  · rw [Worker.socket_handle]
    exact hnew
  · rw [hsent, hqueue, List.append_assoc]
    rfl
  · rw [hheard, hdue, expected_concat, hread, ← htracker, told_append, ← htold seat hseat, hbefore]
    simp [told]
  · rw [Worker.handle_of_notice hnotice]
    funext c
    rw [SequenceTracker.last?_record, List.filterMap_append, List.foldl_append, ← htracker]
    simp only [hread, List.filterMap_cons, List.filterMap_nil, List.foldl_cons, List.foldl_nil, record]
    change (if c = x.channel then some x.seq else p.worker.tracker.last? c) = _
    by_cases hc : c = x.channel
    · rw [hc, Function.update_self, if_pos rfl]
    · rw [Function.update_of_ne hc, if_neg hc]

/-- A step in which no message is taken. -/
theorem Kept.work_on (hgentle : Listener.Gentle L) (h : p.Kept s endpoint) {w : Worker (Logged L)} {rest : τ}
    {now : Nat} (hbusy : ¬p.worker.Awaits)
    (hstep : p.worker.step? (.mail (Logged.answer answer)) now (p.bus, p.rest) = some (w, (p.bus, rest)))
    (halike : Worker.Alike p.worker w) : Kept s endpoint { p with worker := w, rest } := by
  obtain ⟨sock, done, hsock, hendpoint, hsubs, hsent, htold, htracker⟩ := h.taken
  obtain ⟨n, hturn⟩ := h.turn
  refine ⟨halike.suppressed.trans h.suppressed, halike.stopping.trans h.stopping,
    Worker.finished_step? hgentle.logged hbusy h.stopping hstep, halike.shape.trans h.shape, h.formed,
    ⟨n, (Worker.due_step? hbusy hstep).trans hturn⟩, sock, done, ?_, hendpoint, hsubs, hsent, fun seat hseat => ?_, ?_⟩
  · rw [halike.socket]
    exact hsock
  · have hlistener : (p.worker.listener? seat).isSome := by
      rw [Worker.isSome_listener?, h.headcount_eq]
      exact hseat
    exact (Worker.heard_step? hbusy hstep hlistener).trans (htold seat hseat)
  · rw [halike.tracker]
    exact htracker

/-- A message that concerns a game with listeners gets past the subscriptions. -/
theorem Kept.accepts (h : p.Kept s endpoint) {m : Frames} {x : News}
    (hread : read? (s.listeners.map Prod.fst) m = some x) :
    p.bus.accepts p.worker.socket m = true := by
  obtain ⟨sock, done, hsock, _, hsubs, _⟩ := h.taken
  obtain ⟨text, number, rfl, hgame, _⟩ := read?_eq_some_iff.mp hread
  rw [Bus.accepts, hsock, Option.any_some]
  exact Socket.accepts_topic hsubs hgame x.channel.kind [text, number]

theorem Kept.work (hgentle : Listener.Gentle L) (h : p.Kept s endpoint) {w : Worker (Logged L)} {bus : Bus}
    {rest : τ} {now : Nat}
    (hstep : p.worker.step? (.mail (Logged.answer answer)) now (p.bus, p.rest) = some (w, (bus, rest))) :
    Kept s endpoint { p with worker := w, bus, rest } := by
  rcases Worker.step?_cases hstep with ⟨hawaits, rfl, m, hpop, rfl⟩ | ⟨hbusy, rfl, halike, _⟩
  · have hm : WellFormed (s.listeners.map Prod.fst) m := by
      obtain ⟨sock, done, hsock, _, _, hsent, _⟩ := h.taken
      obtain ⟨sock', queue, hsock', hqueue, _⟩ := Bus.pop?_eq_some hpop
      obtain rfl := Option.some.inj (hsock.symm.trans hsock')
      refine h.formed m ?_
      rw [hsent, hqueue]
      exact List.mem_append_right _ List.mem_cons_self
    cases hread : read? (s.listeners.map Prod.fst) m with
    | none =>
      have hsame : (if p.bus.accepts p.worker.socket m = true then p.worker.handle m else p.worker) =
          p.worker := by
        rw [Worker.handle_of_unread hm h.registered hread, ite_self]
      rw [hsame]
      exact h.pass hpop hread
    | some x =>
      rw [if_pos (h.accepts hread)]
      exact h.handle hawaits hpop hm hread
  · exact h.work_on hgentle hbusy hstep halike

theorem Kept.step (hgentle : Listener.Gentle L) (h : p.Kept s endpoint)
    (hstep : Step (Logged.answer answer) endpoint (s.listeners.map Prod.fst) p p') : p'.Kept s endpoint := by
  cases hstep with
  | publish m hm => exact h.publish hm
  | work now hstep => exact h.work hgentle hstep
  | reorder hw => exact h.reorder hw
  | others hb => exact h.others hb

theorem Reached.kept (hgentle : Listener.Gentle L) (hs : s.suppressed = false)
    (h : Reached (Logged.answer answer) s.logged endpoint p) : p.Kept s endpoint := by
  induction h with
  | launch rest hfresh hendpoint hlaunch hw => exact kept_launch hs rest hfresh hendpoint hlaunch hw
  | step _ hstep ih =>
    rw [Subscriber.games_logged] at hstep
    exact ih.step hgentle hstep

end Wire

end ChainFollower
