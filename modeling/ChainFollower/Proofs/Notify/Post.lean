import ChainFollower.Proofs.Notify.Returning
import Mathlib.Logic.Function.Basic

namespace ChainFollower

open News (told told_append callsOf)

namespace Publisher

variable {p : Publisher} {kind : EventKind} {game topic : String} {count : UInt32}

theorem next?_take :
    (p.take kind game count).2.next? topic =
      if topic = Topic.text kind game then p.next? topic + count else p.next? topic := by
  unfold take next?
  simp only [lookup_cons_if]
  by_cases h : topic = Topic.text kind game
  · simp [h]
  · rw [if_neg h, if_neg h, lookup_filter_ne h]

end Publisher

/-- A message with the place of its number among all numbers of its channel. -/
structure Letter where
  channel : Channel
  ordinal : Nat
  payload : Json

namespace Letter

def seq (l : Letter) : UInt32 := UInt32.ofNat l.ordinal

def frames (l : Letter) : Frames := Publisher.frames l.channel.kind l.channel.game l.payload l.seq

/-- The latest letter on a channel. -/
def latest (c : Channel) (log : List (Letter × Notification)) : Option Letter :=
  (log.find? fun entry => entry.1.channel = c).map Prod.fst

theorem ofFrames_frames {H : Type} (l : Letter) :
    (Message.ofFrames l.frames : Except (WorkerHalt H) Message) =
      .ok ⟨Utf8.encode (Topic.text l.channel.kind l.channel.game), l.payload.bytes, l.seq⟩ := by
  simp only [frames, Publisher.frames, Message.ofFrames, Bytes.toUInt32?_ofUInt32]

theorem notice?_frames {L : Type} [Listener L] {w : Worker L} {l : Letter} {n : Notification}
    (h : w.notice? l.frames = some n) :
    n.channel = l.channel ∧ n.seq = l.seq ∧ n.mismatch = w.tracker.mismatch l.channel l.seq := by
  unfold Worker.notice? at h
  rw [ofFrames_frames] at h
  simp only [Worker.channel?, Utf8.decode?_encode, Topic.parse?_text, Option.bind_eq_bind,
    Option.bind_some] at h
  obtain ⟨c, hc, hn⟩ := Option.bind_eq_some_iff.mp h
  obtain ⟨_, _, hc'⟩ := Option.bind_eq_some_iff.mp hc
  cases hc'
  obtain ⟨payload, _, rfl⟩ := Option.map_eq_some_iff.mp hn
  exact ⟨rfl, rfl, rfl⟩

theorem exists_notice {L : Type} [Listener L] {w : Worker L} {l : Letter} {read : Json}
    (hgame : (w.listeners.lookup l.channel.game).isSome)
    (hpayload : Json.parse? l.payload.bytes = some read) :
    ∃ n, w.notice? l.frames = some n := by
  obtain ⟨ls, hls⟩ := Option.isSome_iff_exists.mp hgame
  unfold Worker.notice?
  rw [ofFrames_frames]
  simp only [Worker.channel?, Utf8.decode?_encode, Topic.parse?_text, Option.bind_eq_bind,
    Option.bind_some, hls, hpayload]
  exact ⟨_, rfl⟩

end Letter

/-- The socket of a worker is subscribed to the games of its listeners, and these letters wait there. -/
def Bus.Holds {L : Type} [Listener L] (b : Bus) (w : Worker L) (letters : List Letter) : Prop :=
  ∃ sock, b.socket? w.socket = some sock ∧
    sock.subscriptions = (Subscriber.topics (w.listeners.map Prod.fst)).map Utf8.encode ∧
    sock.queue = letters.map Letter.frames

instance {L : Type} [Listener L] (w : Worker L) : Decidable w.Awaits :=
  inferInstanceAs (Decidable (_ ∧ _ ∧ _))

/-- Publisher and subscriber on a bus, and a note of the numbers that have been used, the letters that
wait in the queue of the worker, the notifications handled, the latest first, and how many of its game had been
when a listener joined. -/
structure Post (L : Type) [Listener L] (τ : Type) where
  publisher : Publisher
  subscriber : Subscriber (Logged L)
  bus : Bus
  rest : τ
  used : Channel → Nat
  transit : List Letter
  handled : List (Letter × Notification)
  joined : Seat → Nat

namespace Post

variable {L τ : Type} [Listener L]

/-- Whether the worker has a socket that hears the publisher. -/
def hears (p : Post L τ) : Bool :=
  p.subscriber.worker.any fun w =>
    (p.bus.socket? w.socket).any fun s => s.endpoint == p.publisher.endpoint

/-- The listeners, whoever has them. -/
def listeners (p : Post L τ) : List (String × List (Logged L)) :=
  match p.subscriber.worker with
  | some w => w.listeners
  | none => p.subscriber.listeners

/-- The calls with notifications that are due. -/
def due (p : Post L τ) : List (Seat × Notification) :=
  match p.subscriber.worker with
  | some w => w.due
  | none => []

/-- The notifications of a game that have been handled, the earliest first. -/
def notices (log : List (Letter × Notification)) (game : String) : List Notification :=
  (log.reverse.map Prod.snd).filter fun n => n.game = game

/-- What is handled after a worker has taken a letter. -/
def taken (p : Post L τ) (w : Worker (Logged L)) (l : Letter) : List (Letter × Notification) :=
  match if p.bus.accepts w.socket l.frames then w.notice? l.frames else none with
  | some n => (l, n) :: p.handled
  | none => p.handled

/-- The notes after a step of the worker. -/
def noted (p : Post L τ) (w : Worker (Logged L)) : List Letter × List (Letter × Notification) :=
  match p.transit with
  | [] => ([], p.handled)
  | l :: letters => if w.Awaits then (letters, p.taken w l) else (l :: letters, p.handled)

/-- One step. A worker that cannot go on is not collected; what others do with the bus leaves the
worker's socket alone. -/
inductive Step (answer : L → (r : Listener.Request L) → τ → Listener.Reply r × τ) :
    Post L τ → Post L τ → Prop
  | publish {p : Post L τ} (c : Channel) (payload : Json) {seq : UInt32} {publisher : Publisher}
      {bus : Bus} (h : p.publisher.publish p.bus c.kind c.game payload = (seq, publisher, bus)) :
      Step answer p { p with
        publisher, bus
        used := Function.update p.used c (p.used c + 1)
        transit := if p.hears then p.transit ++ [⟨c, p.used c, payload⟩] else p.transit }
  | skip {p : Post L τ} (c : Channel) (count : UInt32) :
      Step answer p { p with
        publisher := p.publisher.skip c.kind c.game count
        used := Function.update p.used c (p.used c + count.toNat) }
  | setEndpoint {p : Post L τ} {subscriber : Subscriber (Logged L)} (endpoint : String)
      (h : p.subscriber.setEndpoint endpoint = .ok subscriber) : Step answer p { p with subscriber }
  | addListener {p : Post L τ} {subscriber : Subscriber (Logged L)} (game : String) (l : L)
      (h : p.subscriber.addListener game ⟨l, []⟩ = .ok subscriber) :
      Step answer p { p with
        subscriber
        joined := Function.update p.joined ⟨game, headcount p.subscriber.listeners game⟩
          (notices p.handled game).length }
  | launch {p : Post L τ} {subscriber : Subscriber (Logged L)} {bus : Bus}
      (h : p.subscriber.launch p.bus = .ok (subscriber, bus)) :
      Step answer p { p with subscriber, bus }
  | work {p : Post L τ} {w w' : Worker (Logged L)} {bus : Bus} {rest : τ} (now : Nat)
      (hw : p.subscriber.worker = some w)
      (h : w.step? (.mail (Logged.answer answer)) now (p.bus, p.rest) = some (w', (bus, rest))) :
      Step answer p { p with
        subscriber := { p.subscriber with worker := some w' }
        bus, rest
        transit := (p.noted w).1
        handled := (p.noted w).2 }
  | reorder {p : Post L τ} {w w' : Worker (Logged L)} (hw : p.subscriber.worker = some w)
      (h : w.Reordered w') : Step answer p { p with subscriber := { p.subscriber with worker := some w' } }
  | signalStop {p : Post L τ} : Step answer p { p with subscriber := p.subscriber.signalStop }
  | collect {p : Post L τ} {w : Worker (Logged L)} {subscriber : Subscriber (Logged L)} {bus : Bus}
      (hw : p.subscriber.worker = some w) (hfinished : w.finished = true)
      (h : p.subscriber.collect p.bus = (.ok (), subscriber, bus)) :
      Step answer p { p with subscriber, bus, transit := [] }
  | others {p : Post L τ} {bus : Bus} (hfresh : bus.Fresh)
      (hsocket : ∀ w, p.subscriber.worker = some w → bus.socket? w.socket = p.bus.socket? w.socket) :
      Step answer p { p with bus }

/-- Everything that can come of a new publisher and a new subscriber in either mode. -/
inductive Reached (answer : L → (r : Listener.Request L) → τ → Listener.Reply r × τ) :
    Post L τ → Prop
  | start (endpoint : String) (suppressed : Bool) {bus : Bus} (hfresh : bus.Fresh) (rest : τ) :
      Reached answer ⟨.start endpoint, .start suppressed, bus, rest, fun _ => 0, [], [], fun _ => 0⟩
  | step {p p' : Post L τ} : Reached answer p → Step answer p p' → Reached answer p'

/-- The numbers that are in force. -/
def tracker (p : Post L τ) : SequenceTracker :=
  match p.subscriber.worker with
  | some w => w.tracker
  | none => p.subscriber.tracker

/-- The ordinals of a channel that were handled or wait to be, in order. -/
def course (p : Post L τ) (c : Channel) : List Nat :=
  ((p.handled.reverse.map Prod.fst ++ p.transit).filter fun l => l.channel = c).map Letter.ordinal

/-- Every notification is about its letter, and compares its number with that of the one before. -/
def Faithful : List (Letter × Notification) → Prop
  | [] => True
  | (l, n) :: earlier =>
    (n.channel = l.channel ∧ n.seq = l.seq ∧
      n.mismatch = (Letter.latest l.channel earlier).any fun before => before.seq + 1 != l.seq) ∧
    Faithful earlier

/-- What every step keeps. -/
structure Kept (p : Post L τ) : Prop where
  fresh : p.bus.Fresh
  numbers : ∀ c : Channel, p.publisher.next? (Topic.text c.kind c.game) = UInt32.ofNat (p.used c)
  idle : p.subscriber.worker = none → p.transit = []
  queue : ∀ w, p.subscriber.worker = some w → p.bus.Holds w p.transit
  ascending : ∀ c, (p.course c).Pairwise (· < ·)
  below : ∀ c, ∀ k ∈ p.course c, k < p.used c
  tracked : ∀ c, p.tracker.last? c = (Letter.latest c p.handled).map Letter.seq
  faithful : Faithful p.handled
  mode : ∀ w, p.subscriber.worker = some w → w.suppressed = p.subscriber.suppressed
  ended : ∀ w, p.subscriber.worker = some w → w.activity = .exited → w.errands = []
  since : ∀ seat : Seat, p.joined seat ≤ (notices p.handled seat.game).length
  share : ∀ seat : Seat, (Logged.at? p.listeners seat).isSome →
    Logged.heard p.listeners seat ++ told seat p.due =
      if p.subscriber.suppressed then [] else (notices p.handled seat.game).drop (p.joined seat)

variable {answer : L → (r : Listener.Request L) → τ → Listener.Reply r × τ} {p p' : Post L τ}

theorem kept_start (endpoint : String) (suppressed : Bool) {bus : Bus} (hfresh : bus.Fresh) (rest : τ) :
    Kept (L := L) ⟨.start endpoint, .start suppressed, bus, rest, fun _ => 0, [], [], fun _ => 0⟩ where
  fresh := hfresh
  numbers _ := rfl
  idle _ := rfl
  queue _ hw := nomatch hw
  ascending _ := List.Pairwise.nil
  below _ _ hk := nomatch hk
  tracked _ := rfl
  faithful := trivial
  mode _ hw := nomatch hw
  ended _ hw := nomatch hw
  since _ := Nat.le_refl 0
  share _ hseat := nomatch hseat

theorem le_update (used : Channel → Nat) (c d : Channel) (n : Nat) :
    used d ≤ Function.update used c (used c + n) d := by
  rw [Function.update_apply]
  split
  · next hd =>
    subst hd
    omega
  · exact Nat.le_refl _

theorem numbers_take (hn : ∀ c : Channel, p.publisher.next? (Topic.text c.kind c.game) =
    UInt32.ofNat (p.used c)) (c : Channel) (count : UInt32) (d : Channel) :
    (p.publisher.take c.kind c.game count).2.next? (Topic.text d.kind d.game) =
      UInt32.ofNat (Function.update p.used c (p.used c + count.toNat) d) := by
  rw [Publisher.next?_take, hn]
  by_cases hd : d = c
  · subst hd
    rw [if_pos rfl, Function.update_self, UInt32.ofNat_add, UInt32.ofNat_toNat]
  · have htopic : Topic.text d.kind d.game ≠ Topic.text c.kind c.game := by
      intro heq
      obtain ⟨hkind, hgame⟩ := Topic.text_injective heq
      cases d
      cases c
      simp only at hkind hgame
      exact hd (by rw [hkind, hgame])
    rw [if_neg htopic, Function.update_of_ne hd]

/-- A letter behind all others. -/
theorem course_send (p : Post L τ) (l : Letter) (d : Channel) :
    ((p.handled.reverse.map Prod.fst ++ (p.transit ++ [l])).filter fun l => l.channel = d).map
        Letter.ordinal = p.course d ++ if l.channel = d then [l.ordinal] else [] := by
  rw [← List.append_assoc, List.filter_append, List.map_append, course]
  by_cases hd : l.channel = d
  · simp [hd]
  · simp [hd]

/-- What is published is in the course of its channel only, and only where it is heard. -/
theorem course_publish (p : Post L τ) (c : Channel) (payload : Json) (d : Channel) :
    ((p.handled.reverse.map Prod.fst ++
      (if p.hears then p.transit ++ [⟨c, p.used c, payload⟩] else p.transit)).filter
        fun l => l.channel = d).map Letter.ordinal =
      p.course d ++ if p.hears = true ∧ c = d then [p.used d] else [] := by
  by_cases hears : p.hears = true
  · simp only [hears, if_true, true_and]
    rw [course_send p ⟨c, p.used c, payload⟩ d]
    by_cases hd : c = d
    · rw [if_pos hd, if_pos hd, hd]
    · rw [if_neg hd, if_neg hd]
  · simp [hears, course]

/-- A socket that is heard from gets the letter behind all others. -/
theorem Kept.queue_publish (h : p.Kept) {w : Worker (Logged L)} (hw : p.subscriber.worker = some w) (l : Letter) :
    (p.bus.publish p.publisher.endpoint l.frames).2.Holds w
      (if p.hears then p.transit ++ [l] else p.transit) := by
  obtain ⟨sock, hsock, hsubs, hqueue⟩ := h.queue w hw
  have hears : p.hears = (sock.endpoint == p.publisher.endpoint) := by
    simp only [Post.hears, hw, Option.any_some, hsock]
  have hnew := Bus.socket?_publish p.bus w.socket p.publisher.endpoint l.frames
  rw [hsock, Option.map_some] at hnew
  refine ⟨_, hnew, ?_, ?_⟩
  · split <;> exact hsubs
  · rw [hears]
    by_cases heq : sock.endpoint = p.publisher.endpoint
    · simp [heq, hqueue]
    · simp [heq, hqueue]

theorem Kept.publish (h : p.Kept) (c : Channel) (payload : Json) {seq : UInt32} {publisher : Publisher}
    {bus : Bus} (hp : p.publisher.publish p.bus c.kind c.game payload = (seq, publisher, bus)) :
    Kept { p with
      publisher, bus
      used := Function.update p.used c (p.used c + 1)
      transit := if p.hears then p.transit ++ [⟨c, p.used c, payload⟩] else p.transit } := by
  have hframes : Publisher.frames c.kind c.game payload (p.publisher.take c.kind c.game 1).1 =
      Letter.frames ⟨c, p.used c, payload⟩ := congrArg (Publisher.frames c.kind c.game payload) (h.numbers c)
  simp only [Publisher.publish, Publisher.publishAs, hframes] at hp
  cases hp
  refine { h with
    fresh := Bus.fresh_publish h.fresh _ _
    numbers := numbers_take h.numbers c 1
    idle := fun hw => ?_
    queue := fun w hw => h.queue_publish hw ⟨c, p.used c, payload⟩
    ascending := fun d => ?_
    below := fun d k hk => ?_ }
  · have hdeaf : p.hears = false := by simp only [hears, show p.subscriber.worker = none from hw, Option.any_none]
    simp only [hdeaf, Bool.false_eq_true, if_false]
    exact h.idle hw
  · rw [course, course_publish p c payload d]
    refine List.pairwise_append.mpr ⟨h.ascending d, ?_, fun k hk k' hk' => ?_⟩
    · split
      · exact List.pairwise_singleton _ _
      · exact List.Pairwise.nil
    · split at hk'
      · rw [List.mem_singleton.mp hk']
        exact h.below d k hk
      · cases hk'
  · rw [course, course_publish p c payload d] at hk
    rcases List.mem_append.mp hk with hold | hnew
    · exact Nat.lt_of_lt_of_le (h.below d k hold) (le_update p.used c d 1)
    · split at hnew
      · next hd =>
        obtain ⟨_, rfl⟩ := hd
        rw [List.mem_singleton.mp hnew]
        change p.used c < Function.update p.used c (p.used c + 1) c
        rw [Function.update_self]
        exact Nat.lt_succ_self _
      · cases hnew

theorem Kept.skip (h : p.Kept) (c : Channel) (count : UInt32) :
    Kept { p with
      publisher := p.publisher.skip c.kind c.game count
      used := Function.update p.used c (p.used c + count.toNat) } :=
  { h with
    numbers := numbers_take h.numbers c count
    below := fun d k hk => Nat.lt_of_lt_of_le (h.below d k hk) (le_update p.used c d count.toNat) }

/-- While there is no worker, the subscriber may be set up anew. -/
theorem Kept.setUp (h : p.Kept) (hold : p.subscriber.worker = none) (subscriber : Subscriber (Logged L))
    (hnew : subscriber.worker = none) (htracker : subscriber.tracker = p.subscriber.tracker) {joined : Seat → Nat}
    (hsince : ∀ seat : Seat, joined seat ≤ (notices p.handled seat.game).length)
    (hshare : ∀ seat : Seat, (Logged.at? subscriber.listeners seat).isSome →
      Logged.heard subscriber.listeners seat =
        if subscriber.suppressed then [] else (notices p.handled seat.game).drop (joined seat)) :
    Kept { p with subscriber, joined } where
  fresh := h.fresh
  numbers := h.numbers
  idle _ := h.idle hold
  queue w hw := nomatch hnew.symm.trans hw
  ascending := h.ascending
  below := h.below
  tracked c := by
    have hc := h.tracked c
    simp only [tracker, hold] at hc
    simp only [tracker, hnew, htracker]
    exact hc
  faithful := h.faithful
  mode w hw := nomatch hnew.symm.trans hw
  ended w hw := nomatch hnew.symm.trans hw
  since := hsince
  share seat hseat := by
    simp only [listeners, due, hnew] at hseat ⊢
    rw [hshare seat hseat]
    exact List.append_nil _

/-- Without a worker nothing is due. -/
theorem Kept.share_of_none (h : p.Kept) (hnone : p.subscriber.worker = none) (seat : Seat)
    (hseat : (Logged.at? p.subscriber.listeners seat).isSome) :
    Logged.heard p.subscriber.listeners seat =
      if p.subscriber.suppressed then [] else (notices p.handled seat.game).drop (p.joined seat) := by
  have hshare := h.share seat
  simp only [listeners, due, hnone] at hshare
  rw [← hshare hseat]
  exact (List.append_nil _).symm

theorem Kept.setEndpoint (h : p.Kept) {subscriber : Subscriber (Logged L)} {endpoint : String}
    (hs : p.subscriber.setEndpoint endpoint = .ok subscriber) : Kept { p with subscriber } := by
  unfold Subscriber.setEndpoint at hs
  split at hs
  · cases hs
  · next hstarted =>
    have hnone : p.subscriber.worker = none := by simpa [Subscriber.isStarted] using hstarted
    cases hs
    exact h.setUp hnone { p.subscriber with endpoint := some endpoint } hnone rfl h.since (h.share_of_none hnone)

theorem Kept.addListener (h : p.Kept) {subscriber : Subscriber (Logged L)} {game : String} {l : L}
    (hs : p.subscriber.addListener game ⟨l, []⟩ = .ok subscriber) :
    Kept { p with
      subscriber
      joined := Function.update p.joined ⟨game, headcount p.subscriber.listeners game⟩
        (notices p.handled game).length } := by
  unfold Subscriber.addListener at hs
  split at hs
  · cases hs
  · next hstarted =>
    have hnone : p.subscriber.worker = none := by simpa [Subscriber.isStarted] using hstarted
    cases hs
    refine h.setUp hnone { p.subscriber with listeners := Subscriber.enlist p.subscriber.listeners game ⟨l, []⟩ }
      hnone rfl (fun seat => ?_) (fun seat hseat => ?_)
    · by_cases hnew : seat = ⟨game, headcount p.subscriber.listeners game⟩
      · refine Nat.le_of_eq ?_
        rw [hnew, Function.update_self]
      · rw [Function.update_of_ne hnew]
        exact h.since seat
    · have hshare := h.share_of_none hnone seat
      rw [Logged.heard] at hshare
      simp only [Logged.heard, Logged.at?_enlist] at hseat ⊢
      by_cases hnew : seat = ⟨game, headcount p.subscriber.listeners game⟩
      · rw [if_pos hnew, hnew, Function.update_self, List.drop_length, ite_self]
        rfl
      · rw [if_neg hnew] at hseat ⊢
        rw [Function.update_of_ne hnew]
        exact hshare hseat

theorem Kept.launch (h : p.Kept) {subscriber : Subscriber (Logged L)} {bus : Bus}
    (hs : p.subscriber.launch p.bus = .ok (subscriber, bus)) : Kept { p with subscriber, bus } := by
  obtain ⟨endpoint, hnone, _, rfl, hfresh, _, hsocket⟩ := Subscriber.launch_eq_ok h.fresh hs
  refine { h with fresh := hfresh, idle := nofun, queue := ?_, tracked := ?_, mode := ?_, ended := ?_, share := ?_ }
  · rintro w ⟨⟩
    refine ⟨_, hsocket, rfl, ?_⟩
    rw [show p.transit = [] from h.idle hnone]
    rfl
  · intro c
    have hc := h.tracked c
    simp only [tracker, hnone] at hc
    exact hc
  · rintro w ⟨⟩
    rfl
  · rintro w ⟨⟩ hexited
    cases hexited
  · intro seat hseat
    have hdue : (Worker.start p.bus.nextId p.subscriber.listeners p.subscriber.tracker
        p.subscriber.suppressed).due = [] := Worker.filterMap_call?_of_starts (Worker.starts_start _ _ _ _)
    simp only [listeners, due, hdue] at hseat ⊢
    refine (List.append_nil _).trans (h.share_of_none hnone seat hseat)

theorem Kept.collect (h : p.Kept) {w : Worker (Logged L)} {subscriber : Subscriber (Logged L)} {bus : Bus}
    (hw : p.subscriber.worker = some w) (hfinished : w.finished = true)
    (hs : p.subscriber.collect p.bus = (.ok (), subscriber, bus)) :
    Kept { p with subscriber, bus, transit := [] } := by
  have hkeep (c : Channel) : (((p.handled.reverse.map Prod.fst ++ []).filter
      fun l : Letter => l.channel = c).map Letter.ordinal).Sublist (p.course c) :=
    ((List.Sublist.append_left (List.nil_sublist _) _).filter _).map _
  unfold Subscriber.collect at hs
  rw [hw] at hs
  simp only at hs
  split at hs
  · cases hs
  · next hgoing =>
    cases hs
    refine { h with
      fresh := Bus.fresh_drop h.fresh _
      idle := fun _ => rfl
      queue := nofun
      ascending := fun c => (h.ascending c).sublist (hkeep c)
      below := fun c k hk => h.below c k ((hkeep c).subset hk)
      tracked := fun c => ?_
      mode := nofun
      ended := nofun
      share := fun seat hseat => ?_ }
    · have hc := h.tracked c
      simp only [tracker, hw] at hc
      exact hc
    · have hexited : w.activity = .exited := by
        unfold Worker.finished at hfinished
        split at hfinished
        · next hactivity => exact hactivity
        · next hhalt hactivity => exact absurd hactivity (hgoing hhalt)
        · cases hfinished
      have hshare := h.share seat
      simp only [listeners, due, hw, Worker.due, h.ended w hw hexited] at hshare
      exact hshare hseat

/-- Another worker in the place of the one there is, which has told and will tell the same. -/
theorem Kept.swap (h : p.Kept) {w : Worker (Logged L)} (hw : p.subscriber.worker = some w)
    (w' : Worker (Logged L)) (hsocket : w'.socket = w.socket) (hshape : w'.shape = w.shape)
    (htracker : w'.tracker = w.tracker) (hmode : w'.suppressed = w.suppressed)
    (hover : w'.activity = .exited → w'.errands = [])
    (hshare : ∀ seat, (w'.listener? seat).isSome → (w.listener? seat).isSome ∧
      w'.heard seat ++ told seat w'.due = w.heard seat ++ told seat w.due) (rest : τ) :
    Kept { p with subscriber := { p.subscriber with worker := some w' }, rest } := by
  refine { h with idle := nofun, queue := ?_, tracked := ?_, mode := ?_, ended := ?_, share := ?_ }
  · rintro _ ⟨⟩
    rw [Bus.Holds, hsocket, Worker.games_of_shape hshape]
    exact h.queue w hw
  · intro c
    have hc := h.tracked c
    simp only [tracker, hw] at hc
    simp only [tracker, htracker]
    exact hc
  · rintro _ ⟨⟩
    exact hmode.trans (h.mode w hw)
  · rintro _ ⟨⟩ hexited
    exact hover hexited
  · intro seat hseat
    obtain ⟨hseat', hsame⟩ := hshare seat hseat
    have hold := h.share seat
    simp only [listeners, due, hw] at hold
    exact hsame.trans (hold hseat')

theorem Kept.signalStop (h : p.Kept) : Kept { p with subscriber := p.subscriber.signalStop } := by
  unfold Subscriber.signalStop
  cases hw : p.subscriber.worker with
  | none => exact h.setUp hw { p.subscriber with worker := none } rfl rfl h.since (h.share_of_none hw)
  | some w => exact h.swap hw { w with stopping := true } rfl rfl rfl rfl (h.ended w hw) (fun _ hseat => ⟨hseat, rfl⟩) p.rest

theorem Kept.reorder (h : p.Kept) {w w' : Worker (Logged L)} (hw : p.subscriber.worker = some w)
    (hreordered : w.Reordered w') :
    Kept { p with subscriber := { p.subscriber with worker := some w' } } := by
  obtain ⟨hnew, hold⟩ := hreordered.due_eq
  obtain ⟨errands, hstarts, hperm⟩ := hreordered
  refine h.swap hw { w with errands } rfl rfl rfl rfl (fun hexited => ?_) (fun seat hseat => ⟨hseat, ?_⟩) p.rest
  · exact List.eq_nil_of_length_eq_zero (hperm.length_eq.trans (congrArg List.length (h.ended w hw hexited)))
  · rw [hnew, hold]
    rfl

theorem Kept.others (h : p.Kept) {bus : Bus} (hfresh : bus.Fresh)
    (hsocket : ∀ w, p.subscriber.worker = some w → bus.socket? w.socket = p.bus.socket? w.socket) :
    Kept { p with bus } :=
  { h with
    fresh := hfresh
    queue := fun w hw => by
      obtain ⟨sock, hsock, hholds⟩ := h.queue w hw
      exact ⟨sock, (hsocket w hw).trans hsock, hholds⟩ }

theorem noted_of_busy {w : Worker (Logged L)} (h : ¬w.Awaits) : p.noted w = (p.transit, p.handled) := by
  unfold noted
  split
  · next ht => rw [ht]
  · next ht => rw [if_neg h, ht]

theorem latest_cons (c : Channel) (l : Letter) (n : Notification) (log : List (Letter × Notification)) :
    Letter.latest c ((l, n) :: log) = if l.channel = c then some l else Letter.latest c log := by
  unfold Letter.latest
  rw [List.find?_cons]
  by_cases h : l.channel = c
  · simp [h]
  · simp [h]

/-- The first letter is gone, and nothing is handled. -/
theorem Kept.pass (h : p.Kept) {w : Worker (Logged L)} {l : Letter} {letters : List Letter} {bus : Bus}
    (hw : p.subscriber.worker = some w) (ht : p.transit = l :: letters) (hfresh : bus.Fresh)
    (hholds : bus.Holds w letters) : Kept { p with bus, transit := letters } := by
  have hkeep (c : Channel) : (((p.handled.reverse.map Prod.fst ++ letters).filter
      fun l : Letter => l.channel = c).map Letter.ordinal).Sublist (p.course c) := by
    rw [course, ht]
    exact ((List.Sublist.append_left (List.sublist_cons_self l letters) _).filter _).map _
  refine { h with
    fresh := hfresh
    idle := fun hnone => nomatch hnone.symm.trans hw
    queue := fun w' hw' => ?_
    ascending := fun c => (h.ascending c).sublist (hkeep c)
    below := fun c k hk => h.below c k ((hkeep c).subset hk) }
  obtain rfl := Option.some.inj (hw.symm.trans hw')
  exact hholds

theorem notices_cons (l : Letter) (n : Notification) (log : List (Letter × Notification)) (game : String) :
    notices ((l, n) :: log) game = notices log game ++ if n.game = game then [n] else [] := by
  rw [notices, List.reverse_cons, List.map_append, List.filter_append, notices]
  by_cases h : n.game = game <;> simp [h]

/-- A worker that waits has told its listeners all that was handled, and makes the next notification due to those
of its game. -/
theorem Kept.share_handle (h : p.Kept) {w : Worker (Logged L)} (hw : p.subscriber.worker = some w)
    (hawaits : w.Awaits) (l : Letter) (n : Notification) {seat : Seat} (hseat : (w.listener? seat).isSome) :
    w.heard seat ++ told seat ((if w.suppressed then [] else w.round n).filterMap Errand.call?) =
      if p.subscriber.suppressed then [] else (notices ((l, n) :: p.handled) seat.game).drop (p.joined seat) := by
  have hnone : w.due = [] := by
    rw [Worker.due, hawaits.2.1]
    rfl
  have hheard := h.share seat
  simp only [listeners, due, hw, hnone] at hheard
  have hheard : w.heard seat = _ := (List.append_nil _).symm.trans (hheard hseat)
  rw [hheard, h.mode w hw, notices_cons, List.drop_append_of_le_length (h.since seat)]
  cases p.subscriber.suppressed with
  | true => rfl
  | false =>
    have htold := News.told_callsOf ((w.isSome_listener? seat).mp hseat) [n]
    rw [List.flatMap_cons, List.flatMap_nil, List.append_nil] at htold
    simp only [Bool.false_eq_true, if_false]
    rw [Worker.filterMap_round, htold]
    by_cases hgame : n.game = seat.game <;> simp [hgame]

/-- The first letter is handled. -/
theorem Kept.handle (h : p.Kept) {w : Worker (Logged L)} {l : Letter} {n : Notification} {letters : List Letter}
    {bus : Bus} (hw : p.subscriber.worker = some w) (hawaits : w.Awaits) (ht : p.transit = l :: letters)
    (hfresh : bus.Fresh) (hholds : bus.Holds w letters) (hn : w.notice? l.frames = some n) :
    Kept { p with
      subscriber := { p.subscriber with worker := some (w.handle l.frames) }
      bus
      transit := letters
      handled := (l, n) :: p.handled } := by
  obtain ⟨hchannel, hseq, hmismatch⟩ := Letter.notice?_frames hn
  have htracked (c : Channel) : w.tracker.last? c = (Letter.latest c p.handled).map Letter.seq := by
    have hc := h.tracked c
    simpa only [tracker, hw] using hc
  have hcourse (c : Channel) :
      (((((l, n) :: p.handled).reverse.map Prod.fst ++ letters).filter
        fun l : Letter => l.channel = c).map Letter.ordinal) = p.course c := by
    rw [course, ht, List.reverse_cons, List.map_append, List.append_assoc]
    rfl
  rw [Worker.handle_of_notice hn]
  refine { h with
    fresh := hfresh
    idle := nofun
    queue := ?_
    ascending := fun c => ?_
    below := fun c k hk => ?_
    tracked := fun c => ?_
    faithful := ⟨⟨hchannel, hseq, ?_⟩, h.faithful⟩
    mode := ?_
    ended := ?_
    since := fun seat => ?_
    share := fun seat hseat => ?_ }
  · rintro _ ⟨⟩
    exact hholds
  · rw [course, hcourse c]
    exact h.ascending c
  · rw [course, hcourse c] at hk
    exact h.below c k hk
  · simp only [tracker, SequenceTracker.last?_record, latest_cons, hchannel, hseq, htracked]
    by_cases hc : c = l.channel
    · simp [hc]
    · simp [hc, Ne.symm hc]
  · rw [hmismatch, SequenceTracker.mismatch, htracked]
    cases Letter.latest l.channel p.handled with
    | none => rfl
    | some before => rfl
  · rintro _ ⟨⟩
    exact h.mode w hw
  · rintro _ ⟨⟩ hexited
    rw [Worker.activity_of_isFree hawaits.1] at hexited
    cases hexited
  · rw [notices_cons, List.length_append]
    exact Nat.le_add_right_of_le (h.since seat)
  · simp only [listeners] at hseat ⊢
    exact h.share_handle hw hawaits l n hseat

theorem Kept.accepts (h : p.Kept) {w : Worker (Logged L)} (hw : p.subscriber.worker = some w) {l : Letter}
    (hgame : l.channel.game ∈ w.listeners.map Prod.fst) : p.bus.accepts w.socket l.frames = true := by
  obtain ⟨sock, hsock, hsubs, _⟩ := h.queue w hw
  rw [Bus.accepts, hsock, Option.any_some]
  exact Socket.accepts_topic hsubs hgame l.channel.kind [l.payload.bytes, Bytes.ofUInt32 l.seq]

/-- A worker that waits handles the first letter, if it is about one of its games and can be read. -/
theorem Kept.exists_noted (h : p.Kept) {w : Worker (Logged L)} {l : Letter} {letters : List Letter} {read : Json}
    (hw : p.subscriber.worker = some w) (hawaits : w.Awaits) (ht : p.transit = l :: letters)
    (hgame : l.channel.game ∈ w.listeners.map Prod.fst) (hread : Json.parse? l.payload.bytes = some read) :
    ∃ n, w.notice? l.frames = some n ∧ p.noted w = (letters, (l, n) :: p.handled) := by
  obtain ⟨n, hn⟩ := Letter.exists_notice ((w.isSome_lookup_iff l.channel.game).mpr hgame) hread
  refine ⟨n, hn, ?_⟩
  simp only [noted, ht, if_pos hawaits, taken, h.accepts hw hgame, if_true, hn]

theorem Kept.work (h : p.Kept) {w w' : Worker (Logged L)} {bus : Bus} {rest : τ} {now : Nat}
    (hw : p.subscriber.worker = some w)
    (hstep : w.step? (.mail (Logged.answer answer)) now (p.bus, p.rest) = some (w', (bus, rest))) :
    Kept { p with
      subscriber := { p.subscriber with worker := some w' }
      bus, rest
      transit := (p.noted w).1
      handled := (p.noted w).2 } := by
  rcases Worker.step?_cases hstep with ⟨hawaits, rfl, m, hpop, rfl⟩ | ⟨hbusy, rfl, halike, -⟩
  · obtain ⟨sock, queue, hsock, hqueue, rfl⟩ := Bus.pop?_eq_some hpop
    obtain ⟨sock', hsock', hsubs, hqueue'⟩ := h.queue w hw
    obtain rfl := Option.some.inj (hsock'.symm.trans hsock)
    rw [hqueue'] at hqueue
    obtain ⟨l, letters, ht, rfl, rfl⟩ := List.map_eq_cons_iff.mp hqueue
    have hfresh := Bus.fresh_modify h.fresh w.socket
      (fun s => { s with queue := letters.map Letter.frames }) fun _ => rfl
    have hnew := Bus.socket?_modify p.bus w.socket w.socket
      (fun s => { s with queue := letters.map Letter.frames }) fun _ => rfl
    rw [if_pos rfl, hsock', Option.map_some] at hnew
    have hnoted : p.noted w = (letters, p.taken w l) := by rw [noted, ht]; exact if_pos hawaits
    have hholds : (p.bus.modify w.socket fun s => { s with queue := letters.map Letter.frames }).Holds w letters :=
      ⟨_, hnew, hsubs, rfl⟩
    have hpass := h.pass hw ht hfresh hholds
    rw [hnoted]
    unfold taken
    by_cases haccepts : p.bus.accepts w.socket l.frames = true
    · rw [if_pos haccepts, if_pos haccepts]
      cases hn : w.notice? l.frames with
      | some n => exact h.handle hw hawaits ht hfresh hholds hn
      | none =>
        rw [Worker.handle_of_no_notice hn]
        exact hpass.swap hw { w with activity := (w.handle l.frames).activity } rfl rfl rfl rfl (fun _ => hawaits.2.1)
          (fun _ hseat => ⟨hseat, rfl⟩) p.rest
    · rw [if_neg haccepts, if_neg haccepts]
      exact hpass.swap hw w rfl rfl rfl rfl (h.ended w hw) (fun _ hseat => ⟨hseat, rfl⟩) p.rest
  · rw [noted_of_busy hbusy]
    refine h.swap hw w' halike.socket halike.shape halike.tracker halike.suppressed (Worker.errands_of_exited hbusy hstep)
      (fun seat hseat => ?_) rest
    have hseat' : (w.listener? seat).isSome := by
      have hindex := (w'.isSome_listener? seat).mp hseat
      rw [(Worker.headcount_of_shape halike.shape seat.game).2] at hindex
      exact (w.isSome_listener? seat).mpr hindex
    exact ⟨hseat', Worker.heard_step? hbusy hstep hseat'⟩

theorem Kept.step (h : p.Kept) (hstep : Step answer p p') : p'.Kept := by
  cases hstep with
  | publish c payload hp => exact h.publish c payload hp
  | skip c count => exact h.skip c count
  | setEndpoint endpoint hs => exact h.setEndpoint hs
  | addListener game l hs => exact h.addListener hs
  | launch hs => exact h.launch hs
  | work now hw hstep => exact h.work hw hstep
  | signalStop => exact h.signalStop
  | reorder hw hreordered => exact h.reorder hw hreordered
  | collect hw hfinished hs => exact h.collect hw hfinished hs
  | others hfresh hsocket => exact h.others hfresh hsocket

theorem Reached.kept (h : Reached answer p) : p.Kept := by
  induction h with
  | start endpoint suppressed hfresh rest => exact kept_start endpoint suppressed hfresh rest
  | step _ hstep ih => exact ih.step hstep

end Post

end ChainFollower
