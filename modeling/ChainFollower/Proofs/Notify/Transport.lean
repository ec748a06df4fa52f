import ChainFollower.Proofs.Notify.Bus
import Mathlib.Data.List.TakeWhile

namespace ChainFollower

namespace Bus

inductive Call
  | connect (endpoint : String)
  | subscribe (id : SocketId) (start : Bytes)
  | publish (endpoint : String) (message : Frames)
  | receive (id : SocketId)
  | drop (id : SocketId)

def Call.after : Call → Bus → Bus
  | .connect endpoint, b =>
    match b.connect endpoint with
    | .ok (_, b') => b'
    | .error _ => b
  | .subscribe id start, b => b.subscribe id start
  | .publish endpoint message, b => (b.publish endpoint message).2
  | .receive id, b => (b.receive id).2
  | .drop id, b => b.drop id

/-- The bus after calls, the last one in front. -/
def after : List Call → Bus
  | [] => empty
  | call :: earlier => call.after (after earlier)

/-- The messages that were published on an endpoint, the oldest in front. -/
def published (endpoint : String) : List Call → List Frames
  | [] => []
  | .publish other m :: earlier =>
    if other = endpoint then published endpoint earlier ++ [m] else published endpoint earlier
  | _ :: earlier => published endpoint earlier

def subscribed (id : SocketId) : List Call → List Bytes
  | [] => []
  | .subscribe other start :: earlier =>
    if other = id then subscribed id earlier ++ [start] else subscribed id earlier
  | _ :: earlier => subscribed id earlier

/-- What a socket has received in calls after others, the oldest in front. -/
def received (id : SocketId) (base : List Call) : List Call → List Frames
  | [] => []
  | .receive other :: earlier =>
    if other = id then received id base earlier ++ ((after (earlier ++ base)).receive id).1.toList
    else received id base earlier
  | _ :: earlier => received id base earlier

def queue (b : Bus) (id : SocketId) : List Frames := ((b.socket? id).map Socket.queue).getD []

/-- The messages that are no longer in the queue of a socket when it has received. -/
def taken (b : Bus) (id : SocketId) : List Frames :=
  (b.queue id).take ((b.queue id).length - ((b.receive id).2.queue id).length)

/-- The messages that a socket has taken from its queue, each with what it was subscribed to then. -/
def takings (id : SocketId) (base : List Call) : List Call → List (Frames × List Bytes)
  | [] => []
  | .receive other :: earlier =>
    if other = id then
      takings id base earlier ++ ((after (earlier ++ base)).taken id).map fun m => (m, subscribed id earlier)
    else takings id base earlier
  | _ :: earlier => takings id base earlier

/-- The sockets that were connected to an endpoint and have not been dropped. -/
def live (endpoint : String) : List Call → List SocketId
  | [] => []
  | .connect other :: earlier =>
    match (after earlier).connect other with
    | .ok (id, _) => if other = endpoint then live endpoint earlier ++ [id] else live endpoint earlier
    | .error _ => live endpoint earlier
  | .drop id :: earlier => (live endpoint earlier).filter fun other => other ≠ id
  | _ :: earlier => live endpoint earlier

/-- The first frame has one of these beginnings. -/
def Wanted (starts : List Bytes) (m : Frames) : Prop :=
  ∃ first ∈ m.head?, ∃ start ∈ starts, start <+: first

theorem accepts_iff (s : Socket) (m : Frames) : s.accepts m = true ↔ Wanted s.subscriptions m := by
  cases m with
  | nil => simp [Socket.accepts, Wanted]
  | cons first rest => simp [Socket.accepts, Wanted]

instance (starts : List Bytes) (m : Frames) : Decidable (Wanted starts m) :=
  decidable_of_iff _ (accepts_iff ⟨0, "", starts, []⟩ m)

/-- Whether a call can make a difference to a socket of an endpoint. -/
def Call.concerns (id : SocketId) (endpoint : String) : Call → Bool
  | .connect _ => false
  | .publish other _ => other = endpoint
  | .subscribe other _ | .receive other | .drop other => other = id

variable {b b' : Bus} {id other : SocketId} {sock : Socket} {endpoint : String} {call : Call}
  {base before later : List Call}

theorem receive_eq (hs : b.socket? id = some sock) : b.receive id =
    ((sock.queue.dropWhile fun m => !sock.accepts m).head?,
      b.modify id fun s => { s with queue := (sock.queue.dropWhile fun m => !sock.accepts m).tail }) := by
  rw [receive, hs]
  cases hq : sock.queue.dropWhile fun m => !sock.accepts m with
  | nil => simp only [hq]; rfl
  | cons m rest => simp only [hq]; rfl

theorem receive_of_none (hs : b.socket? id = none) : b.receive id = (none, b) := by
  rw [receive, hs]

theorem socket?_receive (b : Bus) (id other : SocketId) :
    (b.receive other).2.socket? id = if id = other then (b.socket? id).map fun s =>
      { s with queue := (s.queue.dropWhile fun m => !s.accepts m).tail } else b.socket? id := by
  cases hs : b.socket? other with
  | none =>
    rw [receive_of_none hs]
    split
    · next h => rw [h, hs, Option.map_none]
    · rfl
  | some sock =>
    have hmodify := socket?_modify b other id
      (fun s => { s with queue := (sock.queue.dropWhile fun m => !sock.accepts m).tail }) fun _ => rfl
    rw [receive_eq hs]
    refine hmodify.trans ?_
    split
    · next h => rw [h, hs, Option.map_some, Option.map_some]
    · rfl

/-- What a call does to a socket. -/
def Call.onSocket (id : SocketId) : Call → Socket → Option Socket
  | .connect _, s => some s
  | .subscribe other start, s =>
    if id = other then some { s with subscriptions := s.subscriptions ++ [start] } else some s
  | .publish endpoint m, s => some (if s.endpoint = endpoint then { s with queue := s.queue ++ [m] } else s)
  | .receive other, s =>
    if id = other then some { s with queue := (s.queue.dropWhile fun m => !s.accepts m).tail } else some s
  | .drop other, s => if id = other then none else some s

theorem socket?_drop (b : Bus) (id other : SocketId) :
    (b.drop id).socket? other = if other = id then none else b.socket? other := by
  rw [socket?, drop, List.find?_filter]
  split
  · next h =>
    subst h
    rw [List.find?_eq_none]
    simp
  · next h =>
    refine congrFun (congrArg List.find? (funext fun s => ?_)) b.sockets
    by_cases hs : s.id = other
    · simp [hs, h]
    · simp [hs]

theorem socket?_after (call : Call) (hid : id < b.nextId) :
    (call.after b).socket? id = (b.socket? id).bind (call.onSocket id) := by
  cases call with
  | connect endpoint =>
    have hsame : (b.socket? id).bind (Call.onSocket id (.connect endpoint)) = b.socket? id := by
      cases b.socket? id <;> rfl
    rw [hsame]
    unfold Call.after connect
    by_cases hempty : endpoint.isEmpty
    · simp only [hempty, if_true]
    · have hne : ¬b.nextId = id := fun heq => Nat.lt_irrefl id (heq ▸ hid)
      simp [hempty, socket?, List.find?_append, hne]
  | subscribe other start =>
    have hmodify := socket?_modify b other id
      (fun s => { s with subscriptions := s.subscriptions ++ [start] }) fun _ => rfl
    rw [Call.after, subscribe, hmodify]
    by_cases hother : id = other <;> cases b.socket? id <;> simp [Call.onSocket, hother]
  | publish endpoint m =>
    rw [Call.after, socket?_publish]
    cases b.socket? id <;> rfl
  | receive other =>
    rw [Call.after, socket?_receive]
    by_cases hother : id = other <;> cases b.socket? id <;> simp [Call.onSocket, hother]
  | drop other =>
    rw [Call.after, socket?_drop]
    by_cases hother : id = other <;> cases b.socket? id <;> simp [Call.onSocket, hother]

theorem onSocket_of_not_concerns (h : call.concerns id sock.endpoint = false) :
    call.onSocket id sock = some sock := by
  cases call <;> simp_all [Call.concerns, Call.onSocket, eq_comm]

theorem queue_eq (hs : b.socket? id = some sock) : b.queue id = sock.queue := by
  rw [queue, hs]
  rfl

theorem taken_of_none (hs : b.socket? id = none) : b.taken id = [] := by
  rw [taken, queue, hs]
  exact List.take_nil

/-- The queue is what is taken from it and what is left. -/
theorem taken_append (hs : b.socket? id = some sock) :
    b.taken id ++ (sock.queue.dropWhile fun m => !sock.accepts m).tail = sock.queue := by
  have hleft : (b.receive id).2.queue id = (sock.queue.dropWhile fun m => !sock.accepts m).tail := by
    have hsocket := socket?_receive b id id
    rw [if_pos rfl, hs, Option.map_some] at hsocket
    exact queue_eq hsocket
  rw [taken, queue_eq hs, hleft]
  exact List.suffix_iff_eq_append.mp ((List.tail_suffix _).trans (List.dropWhile_suffix _))

/-- Of the messages that are taken only the last one can be wanted, and it is what is received. -/
theorem filter_taken (hs : b.socket? id = some sock) :
    (b.taken id).filter (fun m => Wanted sock.subscriptions m) = (b.receive id).1.toList := by
  have htaken : b.taken id = (sock.queue.takeWhile fun m => !sock.accepts m) ++
      (sock.queue.dropWhile fun m => !sock.accepts m).take 1 := by
    refine List.append_cancel_right ((taken_append hs).trans ?_)
    rw [List.append_assoc, ← List.drop_one, List.take_append_drop, List.takeWhile_append_dropWhile]
  have hskipped : (sock.queue.takeWhile fun m => !sock.accepts m).filter
      (fun m => Wanted sock.subscriptions m) = [] := by
    refine List.filter_eq_nil_iff.mpr fun m hm => ?_
    have hrefused := List.mem_takeWhile_imp hm
    simpa [← accepts_iff] using hrefused
  have hfirst := List.head?_dropWhile_not (fun m => !sock.accepts m) sock.queue
  rw [htaken, List.filter_append, hskipped, List.nil_append, receive_eq hs]
  cases hrest : sock.queue.dropWhile fun m => !sock.accepts m with
  | nil => rfl
  | cons m rest =>
    rw [hrest] at hfirst
    have hwanted : Wanted sock.subscriptions m := (accepts_iff sock m).mp (by simpa using hfirst)
    simp [hwanted]

theorem fresh_call (h : b.Fresh) (call : Call) :
    (call.after b).Fresh ∧ b.nextId ≤ (call.after b).nextId := by
  cases call with
  | connect endpoint =>
    rw [Call.after]
    cases hconnect : b.connect endpoint with
    | error e => exact ⟨h, Nat.le_refl _⟩
    | ok connected =>
      obtain ⟨-, hnext, hfresh, -⟩ := socket?_connect h hconnect
      exact ⟨hfresh, hnext ▸ Nat.le_succ _⟩
  | subscribe other start => exact ⟨fresh_modify h other _ fun _ => rfl, Nat.le_refl _⟩
  | publish endpoint m => exact ⟨fresh_publish h endpoint m, Nat.le_refl _⟩
  | receive other =>
    rw [Call.after]
    cases hs : b.socket? other with
    | none =>
      rw [receive_of_none hs]
      exact ⟨h, Nat.le_refl _⟩
    | some sock =>
      rw [receive_eq hs]
      exact ⟨fresh_modify h other _ fun _ => rfl, Nat.le_refl _⟩
  | drop other => exact ⟨fresh_drop h other, Nat.le_refl _⟩

theorem fresh_after (calls : List Call) : (after calls).Fresh := by
  induction calls with
  | nil => exact fresh_empty
  | cons call earlier ih => exact (fresh_call ih call).1

theorem nextId_le (base later : List Call) : (after base).nextId ≤ (after (later ++ base)).nextId := by
  induction later with
  | nil => exact Nat.le_refl _
  | cons call earlier ih => exact Nat.le_trans ih (fresh_call (fresh_after (earlier ++ base)) call).2

theorem received_of_not_concerns (h : call.concerns id endpoint = false) (earlier : List Call) :
    received id base (call :: earlier) = received id base earlier := by
  cases call with
  | receive other =>
    rw [received, if_neg]
    simpa [Call.concerns] using h
  | _ => rfl

theorem received_receive (calls : List Call) : received id base (.receive id :: calls) =
    received id base calls ++ (((after (calls ++ base)).socket? id).bind fun s =>
      (s.queue.dropWhile fun m => !s.accepts m).head?).toList := by
  rw [received, if_pos rfl]
  cases hs : (after (calls ++ base)).socket? id with
  | none => rw [receive_of_none hs]; rfl
  | some sock => rw [receive_eq hs]; rfl

theorem takings_receive (calls : List Call) : (takings id base (.receive id :: calls)).map Prod.fst =
    (takings id base calls).map Prod.fst ++ (after (calls ++ base)).taken id := by
  rw [takings, if_pos rfl, List.map_append, List.map_map]
  exact congrArg (_ ++ ·) (List.map_id _)

section Socket

variable (hnew : (after base).socket? id = some ⟨id, endpoint, [], []⟩) (hid : id < (after base).nextId)

include hnew hid

/-- A socket that has not been dropped holds what was published and not taken. -/
theorem socket_cases (later : List Call) :
    (Call.drop id ∉ later ∧ ∃ queue,
        (after (later ++ base)).socket? id = some ⟨id, endpoint, subscribed id later, queue⟩ ∧
        (takings id base later).map Prod.fst ++ queue = published endpoint later) ∨
      Call.drop id ∈ later ∧ (after (later ++ base)).socket? id = none ∧
        (takings id base later).map Prod.fst <+: published endpoint later := by
  induction later with
  | nil => exact .inl ⟨List.not_mem_nil, [], hnew, rfl⟩
  | cons call earlier ih =>
    have hafter := socket?_after call (Nat.lt_of_lt_of_le hid (nextId_le base earlier))
    change (after (call :: earlier ++ base)).socket? id = _ at hafter
    rcases ih with ⟨hkept, queue, hsocket, hqueue⟩ | ⟨hdropped, hnone, hprefix⟩
    · rw [hsocket, Option.bind_some] at hafter
      -- Publishing adds to the end of both sides, and receiving moves a part of the queue.
      cases call with
      | connect other => exact .inl ⟨by simpa using hkept, queue, hafter, hqueue⟩
      | subscribe other start =>
        refine .inl ⟨by simpa using hkept, queue, ?_, hqueue⟩
        by_cases hother : id = other
        · rw [subscribed, if_pos hother.symm]
          exact hafter.trans (if_pos hother)
        · rw [subscribed, if_neg (Ne.symm hother)]
          exact hafter.trans (if_neg hother)
      | publish other m =>
        by_cases hother : endpoint = other
        · refine .inl ⟨by simpa using hkept, queue ++ [m], hafter.trans (congrArg some (if_pos hother)), ?_⟩
          rw [published, if_pos hother.symm, ← hqueue, List.append_assoc]
          rfl
        · refine .inl ⟨by simpa using hkept, queue, hafter.trans (congrArg some (if_neg hother)), ?_⟩
          rw [published, if_neg (Ne.symm hother)]
          exact hqueue
      | receive other =>
        by_cases hother : id = other
        · refine .inl ⟨by simpa using hkept, _, hafter.trans (if_pos hother), ?_⟩
          rw [← hother, takings_receive, List.append_assoc, taken_append hsocket]
          exact hqueue
        · refine .inl ⟨by simpa using hkept, queue, hafter.trans (if_neg hother), ?_⟩
          rw [takings, if_neg (Ne.symm hother)]
          exact hqueue
      | drop other =>
        by_cases hother : id = other
        · exact .inr ⟨hother ▸ List.mem_cons_self, hafter.trans (if_pos hother),
            hqueue ▸ List.prefix_append _ queue⟩
        · exact .inl ⟨by simp [hother, hkept], queue, hafter.trans (if_neg hother), hqueue⟩
    · rw [hnone, Option.bind_none] at hafter
      refine .inr ⟨List.mem_cons_of_mem call hdropped, hafter, ?_⟩
      cases call with
      | publish other m =>
        rw [published]
        split
        · exact hprefix.trans (List.prefix_append _ [m])
        · exact hprefix
      | receive other =>
        rw [takings]
        split
        · rw [taken_of_none hnone, List.map_nil, List.append_nil]
          exact hprefix
        · exact hprefix
      | _ => exact hprefix

/-- A socket that receives nothing has taken everything. -/
theorem takings_exhausted {later : List Call} (hkept : Call.drop id ∉ later)
    (hnone : ((after (later ++ base)).receive id).1 = none) :
    (takings id base (.receive id :: later)).map Prod.fst = published endpoint later := by
  rcases socket_cases hnew hid later with ⟨-, queue, hsocket, hqueue⟩ | ⟨hdropped, -⟩
  · rw [receive_eq hsocket] at hnone
    have hall := taken_append hsocket
    rw [List.head?_eq_none_iff.mp hnone, List.tail_nil, List.append_nil] at hall
    rw [takings_receive, hall]
    exact hqueue
  · exact absurd hdropped hkept

theorem received_eq (later : List Call) :
    received id base later =
      ((takings id base later).filter fun t => Wanted t.2 t.1).map Prod.fst := by
  induction later with
  | nil => rfl
  | cons call earlier ih =>
    cases call with
    | receive other =>
      rw [received, takings]
      split
      · rw [ih, List.filter_append, List.map_append]
        refine congrArg (_ ++ ·) ?_
        rcases socket_cases hnew hid earlier with ⟨-, queue, hsocket, -⟩ | ⟨-, hnone, -⟩
        · rw [← filter_taken hsocket, List.filter_map, List.map_map]
          exact (List.map_id _).symm
        · rw [taken_of_none hnone, receive_of_none hnone]
          rfl
      · exact ih
    | _ => exact ih

/-- The calls that do not concern a socket can be left out. -/
theorem received_concerning (later : List Call) :
    (after (later.filter (Call.concerns id endpoint) ++ base)).socket? id =
        (after (later ++ base)).socket? id ∧
      received id base (later.filter (Call.concerns id endpoint)) = received id base later := by
  induction later with
  | nil => exact ⟨rfl, rfl⟩
  | cons call earlier ih =>
    obtain ⟨hsocket, hreceived⟩ := ih
    have hafter (calls : List Call) : (after (call :: calls ++ base)).socket? id =
        ((after (calls ++ base)).socket? id).bind (call.onSocket id) :=
      socket?_after call (Nat.lt_of_lt_of_le hid (nextId_le base calls))
    -- A call that is kept does the same to the socket on both sides; another one does nothing to it.
    rw [List.filter_cons]
    cases hconcerns : call.concerns id endpoint with
    | true =>
      rw [if_pos rfl, hafter, hafter, hsocket]
      refine ⟨rfl, ?_⟩
      cases call with
      | receive other =>
        obtain rfl : other = id := by simpa [Call.concerns] using hconcerns
        rw [received_receive, received_receive, hsocket, hreceived]
      | _ => exact hreceived
    | false =>
      rw [if_neg Bool.false_ne_true, hafter, received_of_not_concerns hconcerns, hsocket]
      refine ⟨?_, hreceived⟩
      rcases socket_cases hnew hid earlier with ⟨-, queue, hkept, -⟩ | ⟨-, hnone, -⟩
      · rw [hkept, Option.bind_some, onSocket_of_not_concerns hconcerns]
      · rw [hnone, Option.bind_none]

end Socket

/-- The sockets that are connected, with their endpoints. -/
def roster (b : Bus) : List (SocketId × String) := b.sockets.map fun s => (s.id, s.endpoint)

theorem roster_map {f : Socket → Socket} (hf : ∀ s, (f s).id = s.id ∧ (f s).endpoint = s.endpoint)
    (hsockets : b'.sockets = b.sockets.map f) : b'.roster = b.roster := by
  rw [roster, hsockets, List.map_map]
  exact List.map_congr_left fun s _ => congrArg₂ Prod.mk (hf s).1 (hf s).2

/-- Only connecting and dropping change which sockets there are, and of which endpoints. -/
theorem roster_after (b : Bus) (call : Call) : (call.after b).roster =
    match call with
    | .connect endpoint => if endpoint.isEmpty then b.roster else b.roster ++ [(b.nextId, endpoint)]
    | .drop id => b.roster.filter fun entry => entry.1 ≠ id
    | _ => b.roster := by
  cases call with
  | connect endpoint =>
    unfold Call.after connect
    by_cases hempty : endpoint.isEmpty
    · simp only [hempty, if_true]
    · simp [hempty, roster]
  | subscribe other start => exact roster_map (fun s => by split <;> exact ⟨rfl, rfl⟩) rfl
  | publish endpoint m => exact roster_map (fun s => by split <;> exact ⟨rfl, rfl⟩) rfl
  | receive other =>
    rw [Call.after]
    cases hs : b.socket? other with
    | none => rw [receive_of_none hs]
    | some sock =>
      rw [receive_eq hs]
      exact roster_map (fun s => by split <;> exact ⟨rfl, rfl⟩) rfl
  | drop other =>
    simp [Call.after, drop, roster, List.filter_map, Function.comp_def, bne, beq_eq_decide]

theorem live_eq (endpoint : String) (calls : List Call) :
    ((after calls).roster.filter fun entry => entry.2 = endpoint).map Prod.fst = live endpoint calls := by
  induction calls with
  | nil => rfl
  | cons call earlier ih =>
    rw [after, roster_after]
    cases call with
    | connect other =>
      simp only [live, connect]
      split
      · exact ih
      · rw [List.filter_append, List.map_append, ih]
        by_cases hother : other = endpoint <;> simp [hother]
    | drop other =>
      simp only [live, ← ih, List.filter_map, List.filter_filter, Function.comp_def, Bool.and_comm]
    | subscribe _ _ | publish _ _ | receive _ => exact ih

theorem nodup_roster (calls : List Call) : ((after calls).roster.map Prod.fst).Nodup := by
  induction calls with
  | nil => exact List.nodup_nil
  | cons call earlier ih =>
    rw [after, roster_after]
    cases call with
    | connect other =>
      simp only
      split
      · exact ih
      · rw [List.map_append]
        refine List.nodup_append.mpr ⟨ih, List.pairwise_singleton _ _, fun id hid other hother heq => ?_⟩
        obtain ⟨entry, hentry, rfl⟩ := List.mem_map.mp hid
        obtain ⟨s, hs, rfl⟩ := List.mem_map.mp hentry
        exact Nat.ne_of_lt (fresh_after earlier s hs) (heq.trans (List.mem_singleton.mp hother))
    | drop other => exact ih.sublist (List.filter_sublist.map Prod.fst)
    | subscribe _ _ | publish _ _ | receive _ => exact ih

theorem count_publish (calls : List Call) (endpoint : String) (m : Frames) :
    ((after calls).publish endpoint m).1 = (live endpoint calls).length ∧ (live endpoint calls).Nodup := by
  rw [← live_eq]
  refine ⟨?_, (nodup_roster calls).sublist (List.filter_sublist.map Prod.fst)⟩
  rw [List.length_map, ← List.countP_eq_length_filter, roster, List.countP_map]
  rfl

/-- What a socket gets in calls after it connected. -/
structure Delivered (endpoint : String) (id : SocketId) (base later : List Call) : Prop where
  /-- It receives what it takes and was subscribed to when it took it. -/
  received_eq : received id base later =
    ((takings id base later).filter fun t => Wanted t.2 t.1).map Prod.fst
  /-- It takes what was published on its endpoint, from the first message on. -/
  taken : (takings id base later).map Prod.fst <+: published endpoint later
  /-- When it receives nothing, it has taken everything. -/
  exhausted : Call.drop id ∉ later → ((after (later ++ base)).receive id).1 = none →
    (takings id base (.receive id :: later)).map Prod.fst = published endpoint later

/-- A socket receives, once and in order, what was published on its endpoint since it connected and what
it was subscribed to when it took it. Calls for other sockets and on other endpoints make no difference to
that. A message is counted for every socket that is connected to its endpoint. -/
theorem delivered {before : List Call} (hconnect : (after before).connect endpoint = .ok (id, b))
    (later : List Call) :
    Delivered endpoint id (.connect endpoint :: before) later ∧
      received id (.connect endpoint :: before) (later.filter (Call.concerns id endpoint)) =
        received id (.connect endpoint :: before) later ∧
      ∀ calls other m, ((after calls).publish other m).1 = (live other calls).length ∧
        (live other calls).Nodup := by
  have hafter : after (.connect endpoint :: before) = b := by rw [after, Call.after, hconnect]
  obtain ⟨hnext, hsucc, -, hsocket⟩ := socket?_connect (fresh_after before) hconnect
  have hnew : (after (.connect endpoint :: before)).socket? id = some ⟨id, endpoint, [], []⟩ := by
    rw [hafter, hsocket]
  have hid : id < (after (.connect endpoint :: before)).nextId := by
    rw [hafter, hsucc, hnext]
    exact Nat.lt_succ_self _
  refine ⟨⟨received_eq hnew hid later, ?_, fun hkept => takings_exhausted hnew hid hkept⟩,
    (received_concerning hnew hid later).2, fun calls other m => count_publish calls other m⟩
  rcases socket_cases hnew hid later with ⟨-, queue, -, hqueue⟩ | ⟨-, -, hprefix⟩
  · exact hqueue ▸ List.prefix_append _ queue
  · exact hprefix

/-- A message comes before the subscription to it, one has no frames, one is wanted twice, and one is
wanted only when it is published again. -/
def chatter : List Call :=
  [.receive 1, .publish "a" [[3]], .drop 0, .subscribe 1 [3], .receive 1, .publish "a" [[3]], .receive 1,
    .receive 1, .publish "a" [[1, 7], [5]], .subscribe 1 [1, 7], .subscribe 1 [1], .receive 0,
    .publish "a" [], .publish "b" [[1]], .publish "a" [[1]]]

theorem delivered_chatter :
    Delivered "a" 1 [.connect "a", .publish "a" [[1]], .connect "a"] chatter ∧
      received 1 [.connect "a", .publish "a" [[1]], .connect "a"] chatter =
        [[[1]], [[1, 7], [5]], [[3]]] ∧
      ((after (chatter ++ [.connect "a", .publish "a" [[1]], .connect "a"])).publish "a" []).1 = 1 := by
  have hconnect : (after [.publish "a" [[1]], .connect "a"]).connect "a" = .ok (1, _) := rfl
  obtain ⟨hdelivered, -, hcount⟩ := delivered hconnect chatter
  exact ⟨hdelivered, by decide, (hcount _ "a" []).1⟩

end Bus

end ChainFollower
