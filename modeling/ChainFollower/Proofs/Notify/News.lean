import ChainFollower.Proofs.Notify.Worker
import Mathlib.Logic.Function.Basic

namespace ChainFollower

def Channel.topic (c : Channel) : Bytes := Utf8.encode (Topic.text c.kind c.game)

theorem Channel.topic_injective {c d : Channel} (h : c.topic = d.topic) : c = d := by
  obtain ⟨hkind, hgame⟩ := Topic.text_injective (Utf8.encode_injective h)
  cases c
  cases d
  simp only at hkind hgame
  rw [hkind, hgame]

/-- What a message says: on which channel, what, and under which number. -/
structure News where
  channel : Channel
  payload : Json
  seq : UInt32

namespace News

/-- Both channels of every game. -/
def channels (games : List String) : List Channel :=
  games.flatMap fun game => [⟨game, .attach⟩, ⟨game, .detach⟩]

theorem mem_channels {games : List String} {c : Channel} : c ∈ channels games ↔ c.game ∈ games := by
  obtain ⟨game, kind⟩ := c
  simp only [channels, List.mem_flatMap]
  constructor
  · rintro ⟨g, hg, hc⟩
    have hgame : game = g := by
      rcases List.mem_cons.mp hc with heq | hc
      · exact congrArg Channel.game heq
      · exact congrArg Channel.game (List.mem_singleton.mp hc)
    exact hgame ▸ hg
  · intro hg
    refine ⟨game, hg, ?_⟩
    cases kind with
    | attach => exact List.mem_cons_self
    | detach => exact List.mem_cons_of_mem _ List.mem_cons_self

/-- The news for these games in a message: its topic is one of theirs. -/
def read? (games : List String) : Frames → Option News
  | [topic, text, number] =>
    ((channels games).find? fun c => c.topic == topic).bind fun c =>
      (Json.parse? text).map fun payload => ⟨c, payload, UInt32.ofNat (Bytes.toNat number)⟩
  | _ => none

/-- Whether the topic of a message is one of the two of a game. -/
def concerns (game : String) (m : Frames) : Bool :=
  (channels [game]).any fun c => m.head? == some c.topic

/-- A message of three frames with a number of four bytes, whose text can be read if it concerns one of
these games. -/
def WellFormed (games : List String) (m : Frames) : Prop :=
  ∃ topic text number, m = [topic, text, number] ∧ number.length = 4 ∧
    ∀ c ∈ channels games, topic = c.topic → ∃ payload, Json.parse? text = some payload

variable {games : List String} {topic : Bytes} {c : Channel} {m : Frames} {x : News}

theorem find?_channels :
    ((channels games).find? fun c => c.topic == topic) = some c ↔ c.game ∈ games ∧ c.topic = topic := by
  constructor
  · intro h
    exact ⟨mem_channels.mp (List.mem_of_find?_eq_some h), by simpa using List.find?_some h⟩
  · rintro ⟨hgame, htopic⟩
    cases hfind : (channels games).find? fun c => c.topic == topic with
    | none =>
      have hne := List.find?_eq_none.mp hfind c (mem_channels.mpr hgame)
      simp [htopic] at hne
    | some d =>
      have hd : d.topic = topic := by simpa using List.find?_some hfind
      rw [Channel.topic_injective (hd.trans htopic.symm)]

theorem read?_eq_some_iff :
    read? games m = some x ↔ ∃ text number, m = [x.channel.topic, text, number] ∧
      x.channel.game ∈ games ∧ Json.parse? text = some x.payload ∧
      x.seq = UInt32.ofNat (Bytes.toNat number) := by
  constructor
  · intro h
    unfold read? at h
    split at h
    · next topic text number =>
      obtain ⟨c, hc, hx⟩ := Option.bind_eq_some_iff.mp h
      obtain ⟨payload, hpayload, rfl⟩ := Option.map_eq_some_iff.mp hx
      obtain ⟨hgame, rfl⟩ := find?_channels.mp hc
      exact ⟨text, number, rfl, hgame, hpayload, rfl⟩
    · cases h
  · rintro ⟨text, number, rfl, hgame, hpayload, hseq⟩
    rw [read?, find?_channels.mpr ⟨hgame, rfl⟩, Option.bind_some, hpayload, Option.map_some, ← hseq]

/-- What was published is what is read. -/
theorem read?_frames {game : String} {kind : EventKind} {payload read : Json} {seq : UInt32}
    (hgame : game ∈ games) (hpayload : Json.parse? payload.bytes = some read) :
    read? games (Publisher.frames kind game payload seq) = some ⟨⟨game, kind⟩, read, seq⟩ := by
  rw [read?_eq_some_iff]
  refine ⟨payload.bytes, Bytes.ofUInt32 seq, rfl, hgame, hpayload, ?_⟩
  rw [Bytes.toNat_ofUInt32, UInt32.ofNat_toNat]

theorem concerns_iff {game : String} : concerns game m = true ↔ ∃ c : Channel, c.game = game ∧
    m.head? = some c.topic := by
  unfold concerns
  rw [List.any_eq_true]
  constructor
  · rintro ⟨c, hc, hhead⟩
    exact ⟨c, by simpa using mem_channels.mp hc, by simpa using hhead⟩
  · rintro ⟨c, hgame, hhead⟩
    exact ⟨c, mem_channels.mpr (by simp [hgame]), by simpa using hhead⟩

/-- The news of one game, read for all games or for it alone. -/
theorem filter_read? {game : String} (hgame : game ∈ games) (m : Frames) :
    ((read? games m).filter fun x => x.channel.game = game) =
      if concerns game m then read? [game] m else none := by
  refine Option.ext fun x => ?_
  rw [Option.filter_eq_some_iff]
  constructor
  · rintro ⟨hread, hx⟩
    have hsame : x.channel.game = game := by simpa using hx
    obtain ⟨text, number, rfl, _, hpayload, hseq⟩ := read?_eq_some_iff.mp hread
    have hconcerns : concerns game [x.channel.topic, text, number] = true :=
      concerns_iff.mpr ⟨x.channel, hsame, rfl⟩
    rw [if_pos hconcerns, read?_eq_some_iff]
    exact ⟨text, number, rfl, by simp [hsame], hpayload, hseq⟩
  · intro h
    split at h
    · obtain ⟨text, number, rfl, hmem, hpayload, hseq⟩ := read?_eq_some_iff.mp h
      have hsame : x.channel.game = game := by simpa using hmem
      refine ⟨read?_eq_some_iff.mpr ⟨text, number, rfl, hsame ▸ hgame, hpayload, hseq⟩, ?_⟩
      simpa using hsame
    · cases h

theorem filter_filterMap_read? {game : String} (hgame : game ∈ games) (sent : List Frames) :
    ((sent.filterMap (read? games)).filter fun x => x.channel.game = game) =
      (sent.filter (concerns game)).filterMap (read? [game]) := by
  induction sent with
  | nil => rfl
  | cons m sent ih =>
    have hm := filter_read? hgame m
    by_cases hc : concerns game m = true
    · rw [if_pos hc] at hm
      rw [List.filter_cons_of_pos hc, List.filterMap_cons, List.filterMap_cons, ← hm, ← ih]
      cases read? games m with
      | none => rfl
      | some x =>
        by_cases hx : x.channel.game = game
        · simp [hx, Option.filter]
        · simp [hx, Option.filter]
    · rw [if_neg hc] at hm
      rw [List.filter_cons_of_neg hc, List.filterMap_cons, ← ih]
      cases hread : read? games m with
      | none => rfl
      | some x =>
        rw [hread] at hm
        have hx : ¬x.channel.game = game := by
          intro hsame
          simp [hsame] at hm
        simp [hx]

/-- The notification of news, after the last numbers of every channel. -/
def notification (last : Channel → Option UInt32) (x : News) : Notification :=
  ⟨x.channel.game, x.channel.kind, x.payload, x.seq,
    (last x.channel).any fun before => before + 1 != x.seq⟩

def record (last : Channel → Option UInt32) (x : News) : Channel → Option UInt32 :=
  Function.update last x.channel (some x.seq)

def notifications (last : Channel → Option UInt32) : List News → List Notification
  | [] => []
  | x :: xs => notification last x :: notifications (record last x) xs

theorem notifications_append (last : Channel → Option UInt32) (xs ys : List News) :
    notifications last (xs ++ ys) = notifications last xs ++ notifications (xs.foldl record last) ys := by
  induction xs generalizing last with
  | nil => rfl
  | cons x xs ih => rw [List.cons_append, notifications, ih, notifications]; rfl

/-- The notifications of one game come of its own news and the last numbers of its own channels. -/
theorem filter_notifications {game : String} {last last' : Channel → Option UInt32}
    (hlast : ∀ c : Channel, c.game = game → last c = last' c) (xs : List News) :
    ((notifications last xs).filter fun n => n.game = game) =
      notifications last' (xs.filter fun x => x.channel.game = game) := by
  induction xs generalizing last last' with
  | nil => rfl
  | cons x xs ih =>
    by_cases hx : x.channel.game = game
    · have hrecord : ∀ c : Channel, c.game = game → record last x c = record last' x c := by
        intro c hc
        unfold record
        by_cases heq : c = x.channel
        · rw [heq, Function.update_self, Function.update_self]
        · rw [Function.update_of_ne heq, Function.update_of_ne heq, hlast c hc]
      have hfirst : notification last x = notification last' x := by
        unfold notification
        rw [hlast x.channel hx]
      have hn : (notification last x).game = game := hx
      rw [notifications, List.filter_cons_of_pos (by simpa using hn), ih hrecord,
        List.filter_cons_of_pos (by simpa using hx), notifications, hfirst]
    · have hrecord : ∀ c : Channel, c.game = game → record last x c = last' c := by
        intro c hc
        have hne : c ≠ x.channel := by
          rintro rfl
          exact hx hc
        rw [record, Function.update_of_ne hne, hlast c hc]
      have hn : ¬(notification last x).game = game := hx
      rw [notifications, List.filter_cons_of_neg (by simpa using hn), ih hrecord,
        List.filter_cons_of_neg (by simpa using hx)]

/-- One call for each of the listeners of a game. -/
def callsOf (count : String → Nat) (n : Notification) : List (Seat × Notification) :=
  (List.range (count n.game)).map fun index => (⟨n.game, index⟩, n)

/-- The calls that are due for messages, message by message and listener by listener. -/
def expected (count : String → Nat) (games : List String) (last : Channel → Option UInt32)
    (sent : List Frames) : List (Seat × Notification) :=
  (notifications last (sent.filterMap (read? games))).flatMap (callsOf count)

theorem expected_append (count : String → Nat) (games : List String) (last : Channel → Option UInt32)
    (done queue : List Frames) :
    expected count games last (done ++ queue) = expected count games last done ++
      expected count games ((done.filterMap (read? games)).foldl record last) queue := by
  rw [expected, List.filterMap_append, notifications_append, List.flatMap_append]
  rfl

theorem expected_concat (count : String → Nat) (games : List String) (last : Channel → Option UInt32)
    (done : List Frames) (m : Frames) :
    expected count games last (done ++ [m]) = expected count games last done ++
      ((read? games m).map fun x => callsOf count (notification
        ((done.filterMap (read? games)).foldl record last) x)).getD [] := by
  rw [expected_append]
  unfold expected
  cases hread : read? games m with
  | none => simp [hread, notifications]
  | some x => simp [hread, notifications]

/-- What one listener is told in a list of calls. -/
def told (seat : Seat) (calls : List (Seat × Notification)) : List Notification :=
  (calls.filter fun call => call.1 = seat).map Prod.snd

theorem told_append (seat : Seat) (calls calls' : List (Seat × Notification)) :
    told seat (calls ++ calls') = told seat calls ++ told seat calls' := by
  rw [told, told, told, List.filter_append, List.map_append]

theorem told_range' (game : String) (index : Nat) (n : Notification) (start k : Nat) :
    told ⟨game, index⟩ ((List.range' start k).map fun i => (⟨n.game, i⟩, n)) =
      if n.game = game ∧ start ≤ index ∧ index < start + k then [n] else [] := by
  induction k with
  | zero =>
    rw [if_neg (by omega)]
    rfl
  | succ k ih =>
    have hlast : told ⟨game, index⟩ [((⟨n.game, start + k⟩ : Seat), n)] =
        if n.game = game ∧ start + k = index then [n] else [] := by
      unfold told
      by_cases h : n.game = game ∧ start + k = index
      · simp [h]
      · rw [if_neg h, List.filter_cons_of_neg (by simpa using h), List.filter_nil, List.map_nil]
    rw [List.range'_1_concat, List.map_append, told_append, ih, List.map_singleton, hlast]
    by_cases hgame : n.game = game
    · by_cases hindex : start ≤ index ∧ index < start + k
      · rw [if_pos ⟨hgame, hindex⟩, if_neg (by omega), if_pos ⟨hgame, by omega⟩, List.append_nil]
      · by_cases heq : start + k = index
        · rw [if_neg (by omega), if_pos ⟨hgame, heq⟩, if_pos ⟨hgame, by omega⟩, List.nil_append]
        · rw [if_neg (by omega), if_neg (by omega), if_neg (by omega), List.append_nil]
    · simp [hgame]

theorem told_callsOf {count : String → Nat} {game : String} {index : Nat} (h : index < count game)
    (ns : List Notification) :
    told ⟨game, index⟩ (ns.flatMap (callsOf count)) = ns.filter fun n => n.game = game := by
  induction ns with
  | nil => rfl
  | cons n ns ih =>
    rw [List.flatMap_cons, told_append, ih, callsOf, List.range_eq_range', told_range']
    by_cases hgame : n.game = game
    · rw [if_pos ⟨hgame, Nat.zero_le _, hgame ▸ (Nat.zero_add _).symm ▸ h⟩,
        List.filter_cons_of_pos (by simpa using hgame)]
      rfl
    · rw [if_neg (by simp [hgame]), List.filter_cons_of_neg (by simpa using hgame)]
      rfl

/-- While a game's listeners are called, those who are still due are the last. -/
theorem told_suffix {count : String → Nat} {n : Notification} {due : List (Seat × Notification)}
    (hdue : due <:+ callsOf count n) {game : String} {first later : Nat} (hle : first ≤ later)
    (hlater : later < count game) : told ⟨game, first⟩ due <:+ told ⟨game, later⟩ due := by
  obtain ⟨start, hdue⟩ : ∃ start, due = (callsOf count n).drop start :=
    ⟨_, List.suffix_iff_eq_drop.mp hdue⟩
  rw [callsOf, ← List.map_drop, List.range_eq_range', List.drop_range'] at hdue
  rw [hdue, told_range', told_range']
  split
  · next hfirst =>
    obtain ⟨rfl, hstart, _⟩ := hfirst
    split
    · exact List.suffix_rfl
    · next hnot => exact absurd ⟨rfl, by omega, by omega⟩ hnot
  · exact List.nil_suffix

/-- A listener is told of every message of its game, once, and of nothing else. -/
theorem told_expected {count : String → Nat} {game : String} {index : Nat} (hgame : game ∈ games)
    (hindex : index < count game) (last : Channel → Option UInt32) (sent : List Frames) :
    told ⟨game, index⟩ (expected count games last sent) =
      notifications last ((sent.filter (concerns game)).filterMap (read? [game])) := by
  rw [expected, told_callsOf hindex, filter_notifications fun c _ => (rfl : last c = last c),
    filter_filterMap_read? hgame]

end News

end ChainFollower
