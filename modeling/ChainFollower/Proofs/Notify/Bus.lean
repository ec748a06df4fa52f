import ChainFollower.Notify.Subscriber

namespace ChainFollower

namespace Bus

/-- A new socket gets an id that none has yet. -/
def Fresh (b : Bus) : Prop := ∀ s ∈ b.sockets, s.id < b.nextId

theorem fresh_empty : Bus.empty.Fresh := List.forall_mem_nil _

variable {b b' : Bus} {id other : SocketId} {sock : Socket} {m : Frames}

theorem find?_map_socket (sockets : List Socket) (g : Socket → Socket) (hg : ∀ s, (g s).id = s.id)
    (id : SocketId) :
    ((sockets.map g).find? fun s => s.id == id) = (sockets.find? fun s => s.id == id).map g := by
  have hid : ((fun s : Socket => s.id == id) ∘ g) = fun s => s.id == id := by
    funext s
    simp only [Function.comp_apply, hg s]
  rw [List.find?_map, hid]

theorem id_of_socket? (h : b.socket? id = some sock) : sock.id = id := by
  have hid := List.find?_some h
  simpa using hid

theorem socket?_modify (b : Bus) (id other : SocketId) (f : Socket → Socket)
    (hf : ∀ s, (f s).id = s.id) :
    (b.modify id f).socket? other = if other = id then (b.socket? other).map f else b.socket? other := by
  have hg : ∀ s : Socket, (if s.id = id then f s else s).id = s.id := by
    intro s
    split
    · exact hf s
    · rfl
  rw [socket?, modify, find?_map_socket _ _ hg]
  change (b.socket? other).map _ = _
  cases hs : b.socket? other with
  | none => simp
  | some sock =>
    have hid := id_of_socket? hs
    simp only [Option.map_some, hid]
    split <;> rfl

theorem fresh_modify (h : b.Fresh) (id : SocketId) (f : Socket → Socket)
    (hf : ∀ s, (f s).id = s.id) :
    (b.modify id f).Fresh := by
  intro s hs
  obtain ⟨s', hs', rfl⟩ := List.mem_map.mp hs
  have hlt := h s' hs'
  split
  · rw [hf]
    exact hlt
  · exact hlt

theorem socket?_publish (b : Bus) (id : SocketId) (endpoint : String) (m : Frames) :
    (b.publish endpoint m).2.socket? id = (b.socket? id).map fun s =>
      if s.endpoint = endpoint then { s with queue := s.queue ++ [m] } else s := by
  refine find?_map_socket _ _ ?_ id
  intro s
  split <;> rfl

theorem fresh_publish (h : b.Fresh) (endpoint : String) (m : Frames) :
    (b.publish endpoint m).2.Fresh := by
  intro s hs
  obtain ⟨s', hs', rfl⟩ := List.mem_map.mp hs
  have hlt := h s' hs'
  split <;> exact hlt

theorem pop?_eq_some (h : b.pop? id = some (m, b')) :
    ∃ sock rest, b.socket? id = some sock ∧ sock.queue = m :: rest ∧
      b' = b.modify id fun s => { s with queue := rest } := by
  unfold pop? at h
  split at h
  · cases h
  · next sock hs =>
    split at h
    · cases h
    · next first rest hq =>
      cases h
      exact ⟨sock, rest, hs, hq, rfl⟩

theorem pop?_of_queue {rest : List Frames} (hs : b.socket? id = some sock)
    (hq : sock.queue = m :: rest) :
    b.pop? id = some (m, b.modify id fun s => { s with queue := rest }) := by
  rw [pop?, hs]
  simp only [hq]

theorem pop?_of_empty (hs : b.socket? id = some sock) (hq : sock.queue = []) : b.pop? id = none := by
  rw [pop?, hs]
  simp only [hq]

theorem fresh_drop (h : b.Fresh) (id : SocketId) : (b.drop id).Fresh :=
  fun s hs => h s (List.mem_filter.mp hs).1

theorem socket?_connect {endpoint : String} (hb : b.Fresh) (h : b.connect endpoint = .ok (id, b')) :
    id = b.nextId ∧ b'.nextId = b.nextId + 1 ∧ b'.Fresh ∧
      b'.socket? id = some ⟨id, endpoint, [], []⟩ := by
  unfold connect at h
  split at h
  · cases h
  · cases h
    refine ⟨rfl, rfl, ?_, ?_⟩
    · intro s hs
      change s.id < b.nextId + 1
      rcases List.mem_append.mp hs with hold | hnew
      · exact Nat.lt_succ_of_lt (hb s hold)
      · rw [List.mem_singleton.mp hnew]
        exact Nat.lt_succ_self b.nextId
    · have hnone : (b.sockets.find? fun s => s.id == b.nextId) = none := by
        rw [List.find?_eq_none]
        intro s hs heq
        have hid : s.id = b.nextId := by simpa using heq
        exact Nat.ne_of_lt (hb s hs) hid
      rw [socket?, List.find?_append, hnone]
      simp

theorem foldl_subscribe (topics : List String) (hs : b.socket? id = some sock) (hb : b.Fresh) :
    (topics.foldl (fun bus topic => bus.subscribe id (Utf8.encode topic)) b).socket? id =
        some { sock with subscriptions := sock.subscriptions ++ topics.map Utf8.encode } ∧
      (topics.foldl (fun bus topic => bus.subscribe id (Utf8.encode topic)) b).nextId = b.nextId ∧
      (topics.foldl (fun bus topic => bus.subscribe id (Utf8.encode topic)) b).Fresh := by
  induction topics generalizing b sock with
  | nil => simpa using ⟨hs, hb⟩
  | cons topic topics ih =>
    have hsub : (b.subscribe id (Utf8.encode topic)).socket? id =
        some { sock with subscriptions := sock.subscriptions ++ [Utf8.encode topic] } := by
      have hmodify := socket?_modify b id id
        (fun s => { s with subscriptions := s.subscriptions ++ [Utf8.encode topic] }) fun _ => rfl
      rw [if_pos rfl, hs] at hmodify
      exact hmodify
    obtain ⟨hend, hnext, hfresh⟩ := ih hsub (fresh_modify hb id _ fun _ => rfl)
    refine ⟨?_, hnext, hfresh⟩
    rw [List.foldl_cons, hend]
    simp [List.append_assoc]

end Bus

namespace Subscriber

variable {L : Type} [Listener L]

theorem launch_eq_ok {s s' : Subscriber L} {b b' : Bus} (hb : b.Fresh) (h : s.launch b = .ok (s', b')) :
    ∃ endpoint, s.worker = none ∧ s.endpoint = some endpoint ∧
      s' = { s with
        listeners := []
        tracker := .empty
        worker := some (.start b.nextId s.listeners s.tracker s.suppressed) } ∧
      b'.Fresh ∧ b'.nextId = b.nextId + 1 ∧
      b'.socket? b.nextId =
        some ⟨b.nextId, endpoint, (topics (s.listeners.map Prod.fst)).map Utf8.encode, []⟩ := by
  unfold launch at h
  split at h
  · cases h
  · next hstarted =>
    have hworker : s.worker = none := by
      simpa [isStarted] using hstarted
    split at h
    · cases h
    · next endpoint hendpoint =>
      split at h
      · cases h
      · next id connected hconnect =>
        obtain ⟨rfl, hnext, hfresh, hsocket⟩ := Bus.socket?_connect hb hconnect
        obtain ⟨hend, hnext', hfresh'⟩ :=
          Bus.foldl_subscribe (topics (s.listeners.map Prod.fst)) hsocket hfresh
        cases h
        exact ⟨endpoint, hworker, hendpoint, rfl, hfresh', hnext'.trans hnext, by simpa using hend⟩

end Subscriber

/-- Whoever is subscribed to the topics of a game gets its messages. -/
theorem Socket.accepts_topic {s : Socket} {games : List String}
    (hs : s.subscriptions = (Subscriber.topics games).map Utf8.encode) {game : String} (hgame : game ∈ games)
    (kind : EventKind) (rest : Frames) : s.accepts (Utf8.encode (Topic.text kind game) :: rest) = true := by
  have hmem : Topic.text kind game ∈ Subscriber.topics games := by
    refine List.mem_flatMap.mpr ⟨game, hgame, ?_⟩
    cases kind with
    | attach => exact List.mem_cons_self
    | detach => exact List.mem_cons_of_mem _ List.mem_cons_self
  simp only [accepts, hs, List.any_eq_true]
  exact ⟨_, List.mem_map_of_mem hmem, List.isPrefixOf_iff_prefix.mpr List.prefix_rfl⟩

end ChainFollower
