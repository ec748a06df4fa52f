import ChainFollower.Proofs.Notify.Calls
import ChainFollower.Proofs.Notify.Returning

namespace ChainFollower

open News

namespace Wire

variable {L τ : Type} [Listener L] {answer : L → (r : Listener.Request L) → τ → Listener.Reply r × τ}
  {s : Subscriber L} {endpoint : String} {p p' : Wire L τ} {q q' : Wire (Logged L) τ}

/-- A step of the worker alone. -/
def Works (answer : L → (r : Listener.Request L) → τ → Listener.Reply r × τ) (p p' : Wire L τ) : Prop :=
  ∃ now w bus rest, p.worker.step? (.mail answer) now (p.bus, p.rest) = some (w, (bus, rest)) ∧
    p' = { p with worker := w, bus, rest }

theorem Reached.works (h : Reached answer s endpoint p) (hw : Relation.ReflTransGen (Works answer) p p') :
    Reached answer s endpoint p' ∧ p'.sent = p.sent := by
  induction hw with
  | refl => exact ⟨h, rfl⟩
  | tail _ hstep ih =>
    obtain ⟨now, w, bus, rest, hstep, rfl⟩ := hstep
    exact ⟨.step ih.1 (.work now hstep), ih.2⟩

theorem works_of_toils {w : Worker L} {rest : τ}
    (h : Relation.ReflTransGen (Worker.Toils answer p.bus) (p.worker, p.rest) (w, rest)) :
    Relation.ReflTransGen (Works answer) p { p with worker := w, rest } :=
  h.lift (fun x => ({ p with worker := x.1, rest := x.2 } : Wire L τ))
    fun _ _ ⟨_, now, hstep⟩ => ⟨now, _, _, _, hstep, rfl⟩

/-- Nothing is going on, nothing is due, and no message waits. -/
def Idle (p : Wire L τ) : Prop := p.worker.Awaits ∧ p.bus.pop? p.worker.socket = none

theorem Reached.prompt (hgentle : Listener.Gentle L) (hreturn : Listener.AllReturn answer)
    (hs : s.suppressed = false) (h : Reached (Logged.answer answer) s.logged endpoint q) :
    q.worker.Prompt (Logged.answer answer) q.rest := by
  induction h with
  | launch rest hfresh hendpoint hlaunch hw =>
    obtain ⟨_, _, _, rfl, _⟩ := Subscriber.launch_eq_ok hfresh hlaunch
    cases hw
    exact .inl rfl
  | step hbefore hstep ih =>
    have hkept := hbefore.kept hgentle hs
    cases hstep with
    | publish m hm => exact ih
    | others hb => exact ih
    | reorder hw =>
      obtain ⟨errands, hstarts, hperm⟩ := hw
      exact ih
    | work now hstep => exact ih.step? hreturn.logged hkept.stopping (hkept.work hgentle hstep).finished hstep

theorem awaits_of_free (hkept : q.Kept s endpoint) (hfree : q.worker.activity = .free)
    (herrands : q.worker.errands = []) : q.worker.Awaits :=
  ⟨by simp [Worker.isFree, hfree], herrands, hkept.stopping⟩

/-- A worker that waits takes the first message and makes the calls that are due for it. -/
theorem exists_taken (hgentle : Listener.Gentle L) (hreturn : Listener.AllReturn answer) (hkept : q.Kept s endpoint)
    (hfree : q.worker.activity = .free) (herrands : q.worker.errands = []) {sock : Socket} {m : Frames}
    {queue : List Frames} (hsock : q.bus.socket? q.worker.socket = some sock) (hqueue : sock.queue = m :: queue) :
    ∃ q', Relation.ReflTransGen (Works (Logged.answer answer)) q q' ∧ q'.worker.activity = .free ∧
      q'.worker.errands = [] ∧ q'.bus.socket? q'.worker.socket = some { sock with queue } := by
  have hstep := Worker.step?_of_pop (Logged.answer answer) q.rest 0
    (awaits_of_free hkept hfree herrands) (Bus.pop?_of_queue hsock hqueue)
  have hnew := Bus.socket?_modify q.bus q.worker.socket q.worker.socket
    (fun s => { s with queue }) fun _ => rfl
  rw [if_pos rfl, hsock, Option.map_some] at hnew
  have hgoing := (hkept.work hgentle hstep).finished
  generalize hnext : (if q.bus.accepts q.worker.socket m then q.worker.handle m else q.worker) = w
    at hstep hgoing
  obtain ⟨hsocket, hfree'⟩ : w.socket = q.worker.socket ∧ w.activity = .free := by
    subst hnext
    split
    · next haccepts =>
      rw [if_pos haccepts] at hgoing
      exact ⟨Worker.socket_handle q.worker m, (Worker.activity_handle_of_going hgoing).trans hfree⟩
    · exact ⟨rfl, hfree⟩
  have htaken : Works (Logged.answer answer) q ⟨w, _, q.rest, q.sent⟩ := ⟨0, _, _, _, hstep, rfl⟩
  obtain ⟨w', rest, htoils, hfree'', hnone, halike⟩ := Worker.exists_done hreturn.logged hfree'
    (q.bus.modify q.worker.socket fun s => { s with queue }) q.rest
  have hworks := works_of_toils (p := ⟨w, _, q.rest, q.sent⟩) htoils
  refine ⟨_, .head htaken hworks, hfree'', hnone, ?_⟩
  simp only [halike.socket, hsocket]
  exact hnew

/-- A worker with nothing to do but to take messages takes them all. -/
theorem exists_idle_queue (hgentle : Listener.Gentle L) (hreturn : Listener.AllReturn answer)
    (hs : s.suppressed = false) {queue : List Frames}
    (h : Reached (Logged.answer answer) s.logged endpoint q)
    (hfree : q.worker.activity = .free) (herrands : q.worker.errands = []) {sock : Socket}
    (hsock : q.bus.socket? q.worker.socket = some sock) (hqueue : sock.queue = queue) :
    ∃ q', Relation.ReflTransGen (Works (Logged.answer answer)) q q' ∧ q'.Idle := by
  induction queue generalizing q sock with
  | nil =>
    exact ⟨q, .refl, awaits_of_free (h.kept hgentle hs) hfree herrands, Bus.pop?_of_empty hsock hqueue⟩
  | cons m queue ih =>
    obtain ⟨q₁, hworks, hfree₁, herrands₁, hsock₁⟩ :=
      exists_taken hgentle hreturn (h.kept hgentle hs) hfree herrands hsock hqueue
    obtain ⟨q', hworks', hidle⟩ := ih (h.works hworks).1 hfree₁ herrands₁ hsock₁ rfl
    exact ⟨q', hworks.trans hworks', hidle⟩

/-- Where calls come to an end, the worker gets through all that was published. -/
theorem exists_idle (hgentle : Listener.Gentle L) (hreturn : Listener.AllReturn answer)
    (hs : s.suppressed = false) (h : Reached (Logged.answer answer) s.logged endpoint q) :
    ∃ q', Relation.ReflTransGen (Works (Logged.answer answer)) q q' ∧ q'.Idle := by
  obtain ⟨w₁, rest₁, hcall, hfree₁, _⟩ := (h.prompt hgentle hreturn hs).exists_free q.bus
  obtain ⟨w₂, rest₂, hround, hfree', hnone, _⟩ := Worker.exists_done hreturn.logged hfree₁ q.bus rest₁
  have hworks := works_of_toils (hcall.trans hround)
  have hready := (h.works hworks).1
  obtain ⟨sock, _, hsock, _⟩ := (hready.kept hgentle hs).taken
  obtain ⟨q', hworks', hidle⟩ := exists_idle_queue hgentle hreturn hs hready hfree' hnone hsock rfl
  exact ⟨q', hworks.trans hworks', hidle⟩

/-- What a listener of a game is to be told once all that was published has been taken. -/
def share (s : Subscriber L) (sent : List Frames) (game : String) : List Notification :=
  notifications s.tracker.last? ((sent.filter (concerns game)).filterMap (read? [game]))

theorem Kept.exists_heard (h : q.Kept s endpoint) :
    ∃ done queue, q.sent = done ++ queue ∧
      ∀ game ∈ s.listeners.map Prod.fst, ∀ index < headcount s.listeners game,
        q.worker.heard ⟨game, index⟩ ++ told ⟨game, index⟩ q.worker.due = share s done game := by
  obtain ⟨sock, done, _, _, _, hsent, htold, _⟩ := h.taken
  refine ⟨done, sock.queue, hsent, fun game hgame index hindex => ?_⟩
  rw [htold ⟨game, index⟩ hindex, told_expected hgame hindex]
  rfl

theorem share_append (s : Subscriber L) (done queue : List Frames) (game : String) :
    share s done game <+: share s (done ++ queue) game := by
  rw [share, share, List.filter_append, List.filterMap_append, notifications_append]
  exact List.prefix_append _ _

/-- A listener has been told of messages of its game alone, in their order, each once. -/
theorem Kept.heard_prefix (h : q.Kept s endpoint) {game : String} (hgame : game ∈ s.listeners.map Prod.fst)
    {index : Nat} (hindex : index < headcount s.listeners game) :
    q.worker.heard ⟨game, index⟩ <+: share s q.sent game := by
  obtain ⟨done, queue, hsent, hheard⟩ := h.exists_heard
  rw [hsent]
  refine List.IsPrefix.trans ?_ (share_append s done queue game)
  rw [← hheard game hgame index hindex]
  exact List.prefix_append _ _

/-- Nothing is told to a listener before it was told to those of its game that came earlier. -/
theorem Kept.heard_order (h : q.Kept s endpoint) {game : String} (hgame : game ∈ s.listeners.map Prod.fst)
    {first index : Nat} (hle : first ≤ index) (hindex : index < headcount s.listeners game) :
    q.worker.heard ⟨game, index⟩ <+: q.worker.heard ⟨game, first⟩ := by
  obtain ⟨done, queue, _, hheard⟩ := h.exists_heard
  obtain ⟨n, hturn⟩ := h.turn
  obtain ⟨extra, hextra⟩ := told_suffix hturn hle hindex
  have hsame := (hheard game hgame index hindex).trans (hheard game hgame first (by omega)).symm
  rw [← hextra, ← List.append_assoc] at hsame
  exact ⟨extra, List.append_cancel_right hsame⟩

theorem Kept.heard_of_idle (h : q.Kept s endpoint) (hidle : q.Idle) {game : String}
    (hgame : game ∈ s.listeners.map Prod.fst) {index : Nat} (hindex : index < headcount s.listeners game) :
    q.worker.heard ⟨game, index⟩ = share s q.sent game := by
  obtain ⟨⟨_, herrands, _⟩, hpop⟩ := hidle
  obtain ⟨sock, done, hsock, _, _, hsent, htold, _⟩ := h.taken
  cases hqueue : sock.queue with
  | nil =>
    have hdue : q.worker.due = [] := by
      rw [Worker.due, herrands]
      rfl
    have hheard := htold ⟨game, index⟩ hindex
    rw [hdue, told_expected hgame hindex] at hheard
    rw [hsent, hqueue, List.append_nil]
    exact (List.append_nil _).symm.trans hheard
  | cons m queue =>
    rw [Bus.pop?_of_queue hsock hqueue] at hpop
    cases hpop

/-- The same without what listeners have been told. -/
def plain (q : Wire (Logged L) τ) : Wire L τ := ⟨q.worker.plain, q.bus, q.rest, q.sent⟩

/-- Whatever comes of a launch comes of one where listeners note what they are told. -/
theorem Reached.exists_logged (h : Reached answer s endpoint p) :
    ∃ q, Reached (Logged.answer answer) s.logged endpoint q ∧ q.plain = p := by
  induction h with
  | launch rest hfresh hendpoint hlaunch hw =>
    obtain ⟨s₁, w₁, hlaunch₁, hw₁, rfl⟩ := Subscriber.launch_logged hlaunch hw
    exact ⟨⟨w₁, _, rest, []⟩, .launch rest hfresh hendpoint hlaunch₁ hw₁, rfl⟩
  | step _ hstep ih =>
    obtain ⟨q, hq, rfl⟩ := ih
    have hgames := s.games_logged
    cases hstep with
    | publish m hm => exact ⟨_, hq.step (.publish m (hgames ▸ hm)), rfl⟩
    | work now hwork =>
      obtain ⟨⟨w, bus, rest⟩, hwork', hnext⟩ :=
        Option.map_eq_some_iff.mp ((Worker.step?_plain answer now q.worker (q.bus, q.rest)).symm.trans hwork)
      cases hnext
      exact ⟨_, hq.step (.work now hwork'), rfl⟩
    | reorder hw =>
      obtain ⟨errands, hstarts, hperm⟩ := hw
      exact ⟨_, hq.step (.reorder ⟨errands, hstarts, hperm⟩), rfl⟩
    | others hb => exact ⟨_, hq.step (.others hb), rfl⟩

/-- What was published is what is told, on the topics of its game and no others. -/
theorem read?_published (game : String) (kind : EventKind) {payload : Json} (seq : UInt32)
    (hpayload : Json.parse? payload.bytes = some payload) (other : String) :
    (concerns other (Publisher.frames kind game payload seq) = true ↔ other = game) ∧
      read? [game] (Publisher.frames kind game payload seq) = some ⟨⟨game, kind⟩, payload, seq⟩ := by
  refine ⟨?_, read?_frames List.mem_cons_self hpayload⟩
  rw [concerns_iff]
  constructor
  · rintro ⟨c, rfl, hhead⟩
    have htopic : Channel.topic ⟨game, kind⟩ = c.topic := Option.some.inj hhead
    exact (congrArg Channel.game (Channel.topic_injective htopic)).symm
  · rintro rfl
    exact ⟨⟨other, kind⟩, rfl, rfl⟩

/-- Whatever is published: the worker goes on, and however far it has come, every listener has been told what
the messages of its own game say, each once and in order, and never before those that were added earlier. It has
been told all of it where the worker is idle, and the worker gets there where calls come to an end. -/
theorem calls_of_published (hgentle : Listener.Gentle L) (hs : s.suppressed = false) :
    (∀ p, Reached answer s endpoint p →
      ∃ q, Reached (Logged.answer answer) s.logged endpoint q ∧ q.plain = p) ∧
    (∀ q, Reached (Logged.answer answer) s.logged endpoint q →
      q.worker.finished = false ∧
      (∀ game ∈ s.listeners.map Prod.fst, ∀ index < headcount s.listeners game,
        q.worker.heard ⟨game, index⟩ <+: share s q.sent game ∧
        (∀ first ≤ index, q.worker.heard ⟨game, index⟩ <+: q.worker.heard ⟨game, first⟩) ∧
        (q.Idle → q.worker.heard ⟨game, index⟩ = share s q.sent game)) ∧
      (Listener.AllReturn answer →
        ∃ q', Relation.ReflTransGen (Works (Logged.answer answer)) q q' ∧
          Reached (Logged.answer answer) s.logged endpoint q' ∧ q'.sent = q.sent ∧ q'.Idle)) ∧
    ∀ game kind payload seq, Json.parse? payload.bytes = some payload → ∀ other,
      (concerns other (Publisher.frames kind game payload seq) = true ↔ other = game) ∧
        read? [game] (Publisher.frames kind game payload seq) = some ⟨⟨game, kind⟩, payload, seq⟩ := by
  refine ⟨fun p hp => hp.exists_logged, fun q hq => ?_, fun game kind payload seq hpayload other =>
    read?_published game kind seq hpayload other⟩
  have hkept := hq.kept hgentle hs
  refine ⟨hkept.finished, fun game hgame index hindex => ⟨hkept.heard_prefix hgame hindex,
    fun first hle => hkept.heard_order hgame hle hindex, fun hidle => hkept.heard_of_idle hidle hgame hindex⟩,
    fun hreturn => ?_⟩
  obtain ⟨q', hworks, hidle⟩ := exists_idle hgentle hreturn hs hq
  obtain ⟨hreached, hsent⟩ := hq.works hworks
  exact ⟨q', hworks, hreached, hsent, hidle⟩

/-- Two listeners of one game and one of a game whose name begins with that of the other. -/
def enquirers : Subscriber Enquirer := ⟨false, some "here", [("a", [⟨⟩, ⟨⟩]), ("ab", [⟨⟩])], .empty, none⟩

theorem Enquirer.gentle : Listener.Gentle Enquirer where
  started _ _ := nofun
  notified _ _ _ := nofun
  proceed _ _ _ _ := nofun

theorem wellFormed_null (games : List String) (kind : EventKind) (game : String) (seq : UInt32) :
    WellFormed games (Publisher.frames kind game .null seq) :=
  ⟨_, _, _, rfl, rfl, fun _ _ _ => ⟨.null, by rfl⟩⟩

theorem calls_of_published_enquirers :
    ∃ q q' : Wire (Logged Enquirer) Unit,
      Reached (Logged.answer fun _ _ rest => ((), rest)) enquirers.logged "here" q ∧
      Relation.ReflTransGen (Works (Logged.answer fun _ _ rest => ((), rest))) q q' ∧
      q'.worker.finished = false ∧
      ∀ index < 2,
        (q'.worker.heard ⟨"a", index⟩).map (fun n => (n.game, n.kind, n.seq, n.mismatch)) =
          [("a", .attach, 7, false), ("a", .attach, 9, true)] ∧
        (q'.worker.heard ⟨"ab", 0⟩).map (fun n => (n.game, n.kind, n.seq, n.mismatch)) =
          [("ab", .detach, 5, false)] := by
  obtain ⟨s', bus, hlaunch, w, hw⟩ : ∃ s' bus,
      enquirers.logged.launch Bus.empty = .ok (s', bus) ∧ ∃ w, s'.worker = some w :=
    ⟨_, _, rfl, _, rfl⟩
  have hlaunched : Reached (Logged.answer fun _ _ rest => ((), rest)) enquirers.logged "here" ⟨w, bus, (), []⟩ :=
    .launch () Bus.fresh_empty rfl hlaunch hw
  have hsent := ((hlaunched.step (.publish _ (wellFormed_null _ .detach "ab" 5))).step
    (.publish _ (wellFormed_null _ .attach "a" 7))).step
      (.publish _ (wellFormed_null _ .attach "a" 9))
  have hdispatch : enquirers.suppressed = false := rfl
  obtain ⟨_, hall, _⟩ := calls_of_published Enquirer.gentle hdispatch
  obtain ⟨_, _, hidle⟩ := hall _ hsent
  obtain ⟨q', hworks, hreached, hsame, hdone⟩ := hidle (Enquirer.allReturn _)
  obtain ⟨hgoes, htold, _⟩ := hall q' hreached
  refine ⟨_, q', hsent, hworks, hgoes, fun index hindex => ⟨?_, ?_⟩⟩
  · rw [(htold "a" List.mem_cons_self index hindex).2.2 hdone, hsame]
    rfl
  · rw [(htold "ab" (List.mem_cons_of_mem _ List.mem_cons_self) 0 Nat.zero_lt_one).2.2 hdone, hsame]
    rfl

end Wire

end ChainFollower
