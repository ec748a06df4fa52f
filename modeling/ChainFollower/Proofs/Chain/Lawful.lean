import ChainFollower.Proofs.Chain.Payload
import ChainFollower.Proofs.Chain.Simulated

namespace ChainFollower

namespace SimulatedChain

/-- What the hash of a block is the digest of. -/
structure Seed where
  parent : Hash
  height : UInt64
  nonce : UInt64

def Seed.hash (s : Seed) : Hash := blockHash s.parent s.height s.nonce

/-- A block when it was mined: what was hashed for it, the header that was given back, and the moves. -/
structure Mining where
  seed : Seed
  header : Header
  moves : List (String × Json)

inductive Act
  | attach (moves : List (String × Json))
  | detach
  | setOffline (offline : Bool)

/-- The chain after a call; one that fails changes nothing. -/
def Act.after : Act → SimulatedChain → SimulatedChain
  | .attach moves, c => (c.attach moves).2
  | .detach, c =>
    match c.detach with
    | .ok (_, c') => c'
    | .error _ => c
  | .setOffline offline, c => c.setOffline offline

def Act.switch? : Act → Option Bool
  | .setOffline offline => some offline
  | _ => none

/-- The chain after calls, the last one in front. -/
def after (network : Network) : List Act → SimulatedChain
  | [] => start network
  | act :: earlier => act.after (after network earlier)

/-- All blocks that the calls have mined, the newest in front, on the genesis block. -/
def mined (network : Network) : List Act → List Mining
  | [] => [⟨⟨.zero, 0, 0⟩, genesis, []⟩]
  | .attach moves :: earlier =>
    let c := after network earlier
    ⟨⟨c.tip.hash, c.tip.height + 1, c.nonce⟩, (c.attach moves).1, moves⟩ :: mined network earlier
  | _ :: earlier => mined network earlier

variable {network : Network} {c c' : SimulatedChain} {ms : List Mining} {header : Header}

/-- The chain keeps every mined block, and the numbers in the hashes count them. -/
structure Recorded (network : Network) (c : SimulatedChain) (ms : List Mining) : Prop where
  network_eq : c.network = network
  grown : (c.setOffline false).Grown
  blocks_eq : c.blocks = ms.map fun m => ⟨m.header, m.moves⟩
  hash_eq : ∀ m ∈ ms, m.header.hash = m.seed.hash
  nonces_eq : (ms.map fun m => m.seed.nonce.toNat) = (List.range ms.length).reverse
  nonce_eq : c.nonce = UInt64.ofNat ms.length
  branch_lt : c.branch.length < ms.length

theorem recorded_start (network : Network) : Recorded network (start network) (mined network []) where
  network_eq := rfl
  grown := grown_start network
  blocks_eq := rfl
  hash_eq m hm := by
    rw [List.mem_singleton.mp hm]
    rfl
  nonces_eq := rfl
  nonce_eq := rfl
  branch_lt := Nat.zero_lt_one

theorem Recorded.attach (h : Recorded network c ms) (hsize : ms.length < UInt64.size)
    (moves : List (String × Json)) :
    Recorded network (c.attach moves).2
      (⟨⟨c.tip.hash, c.tip.height + 1, c.nonce⟩, (c.attach moves).1, moves⟩ :: ms) where
  network_eq := h.network_eq
  grown := h.grown.attach (Nat.lt_of_le_of_lt h.branch_lt hsize) moves
  blocks_eq := congrArg (_ :: ·) h.blocks_eq
  hash_eq m hm := by
    rcases List.mem_cons.mp hm with rfl | hm
    · rfl
    · exact h.hash_eq m hm
  nonces_eq := by
    have hnonce : c.nonce.toNat = ms.length := by
      rw [h.nonce_eq, UInt64.toNat_ofNat_of_lt' hsize]
    rw [List.map_cons, h.nonces_eq, List.length_cons, List.range_succ, List.reverse_concat, hnonce]
  nonce_eq := by
    change c.nonce + 1 = UInt64.ofNat (ms.length + 1)
    rw [h.nonce_eq, UInt64.ofNat_add]
    rfl
  branch_lt := Nat.succ_lt_succ h.branch_lt

theorem Act.after_detach (c : SimulatedChain) : Act.detach.after c = { c with branch := c.branch.tail } := by
  obtain ⟨network, blocks, branch, nonce, offline⟩ := c
  cases branch <;> rfl

theorem Recorded.detach (h : Recorded network c ms) : Recorded network (Act.detach.after c) ms := by
  rw [Act.after_detach]
  have hless : c.branch.tail.length < ms.length := by
    rw [List.length_tail]
    have := h.branch_lt
    omega
  have hgrown := h.grown
  exact ⟨h.network_eq, ⟨hgrown.genesis, hgrown.rooted, hgrown.branch.suffix (List.tail_suffix _), rfl⟩,
    h.blocks_eq, h.hash_eq, h.nonces_eq, h.nonce_eq, hless⟩

theorem recorded (network : Network) (acts : List Act) (hsize : (mined network acts).length ≤ UInt64.size) :
    Recorded network (after network acts) (mined network acts) := by
  induction acts with
  | nil => exact recorded_start network
  | cons act earlier ih =>
    cases act with
    | attach moves => exact (ih (Nat.le_of_succ_le hsize)).attach hsize moves
    | detach => exact (ih hsize).detach
    | setOffline offline =>
      have h := ih hsize
      exact ⟨h.network_eq, h.grown, h.blocks_eq, h.hash_eq, h.nonces_eq, h.nonce_eq, h.branch_lt⟩

theorem Recorded.nodup (h : Recorded network c ms)
    (hdigests : ∀ m ∈ ms, ∀ m' ∈ ms, m.seed.hash = m'.seed.hash → m.seed = m'.seed) :
    (ms.map fun m => m.header.hash).Nodup := by
  have hnonces : (ms.map fun m => m.seed.nonce.toNat).Nodup := by
    rw [h.nonces_eq]
    exact List.nodup_reverse.mpr List.nodup_range
  -- One digest is of one seed, and one seed has one number.
  refine List.Nodup.map_on (fun m hm m' hm' heq => ?_) hnonces.of_map
  rw [h.hash_eq m hm, h.hash_eq m' hm'] at heq
  have hseed := hdigests m hm m' hm' heq
  exact List.inj_on_of_nodup_map hnonces hm hm' (by rw [hseed])

/-- What holds of a chain that these blocks were mined on. -/
structure Lawful (network : Network) (c : SimulatedChain) (ms : List Mining) : Prop where
  hashAt_zero : c.hashAt 0 = some genesis.hash
  hashAt_isSome : ∀ height, (c.hashAt height).isSome ↔ height ≤ c.tip.height
  hashAt_tip : c.hashAt c.tip.height = some c.tip.hash
  /-- Each canonical block lies on the one below it. -/
  linked : ∀ height < c.tip.height, ∃ m ∈ ms, c.hashAt (height + 1) = some m.header.hash ∧
    m.header.height = height + 1 ∧ c.hashAt height = some m.header.parent
  distinct : (ms.map fun m => m.header.hash).Nodup
  /-- The tip comes off, and its parent becomes the tip; at the genesis block nothing does. -/
  detached : c.tip.height = 0 ∧ c.detach = .error .genesisStays ∨
    0 < c.tip.height ∧ ∃ m ∈ ms, ∃ c', c.detach = .ok (m.header, c') ∧ m.header.tip = c.tip ∧
      c'.tip = m.header.parentTip ∧
      (∀ height, c'.hashAt height = if height < c.tip.height then c.hashAt height else none) ∧
      ∀ game hash, c'.payload game hash = c.payload game hash
  /-- Every block that was ever mined is served as it was mined. -/
  served : ∀ m ∈ ms, ∀ game, ∃ doc, c.payload game m.header.hash = .ok doc ∧
    payloadHeader doc = .ok m.header ∧
    doc.field? "moves" = some (.arr ((m.moves.filter fun move => move.1 = game).map Prod.snd))
  offline : c.offline = true → c.answer .info = .error unreachable ∧
    (∀ height, c.answer (.hashAt height) = .error unreachable) ∧
    ∀ game hash, c.answer (.block game hash) = .error unreachable
  online : c.offline = false → c.answer .info = .ok ⟨network, c.tip⟩ ∧
    (∀ height, c.answer (.hashAt height) = .ok (c.hashAt height)) ∧
    ∀ game hash, c.answer (.block game hash) = c.payload game hash

theorem hashAt_eq_none {height : UInt64} (h : c.branch.length < height.toNat) : c.hashAt height = none := by
  rw [hashAt, if_neg (Nat.not_le.mpr h)]

theorem Recorded.height_tip (h : Recorded network c ms) : c.tip.height.toNat = c.branch.length :=
  h.grown.branch.height_top

theorem Recorded.exists_mining (h : Recorded network c ms) {b : Header} (hb : b ∈ c.known) :
    ∃ m ∈ ms, m.header = b := by
  rw [known, h.blocks_eq, List.map_map] at hb
  obtain ⟨m, hm, hheader⟩ := List.mem_map.mp hb
  exact ⟨m, hm, hheader⟩

theorem Recorded.linked (h : Recorded network c ms) (hsize : ms.length ≤ UInt64.size) {height : UInt64}
    (hless : height < c.tip.height) : ∃ m ∈ ms, c.hashAt (height + 1) = some m.header.hash ∧
      m.header.height = height + 1 ∧ c.hashAt height = some m.header.parent := by
  have hlt : height.toNat < c.branch.length := by
    rw [← h.height_tip]
    exact UInt64.lt_iff_toNat_lt.mp hless
  -- The canonical blocks up to the height, below the one in question.
  have hdrop := List.drop_suffix (c.branch.length - height.toNat) c.branch
  have hlength : (c.branch.drop (c.branch.length - height.toNat)).length = height.toNat := by
    rw [List.length_drop]
    omega
  have hheight : (top (c.branch.drop (c.branch.length - height.toNat))).height = height :=
    UInt64.toNat_inj.mp ((h.grown.branch.suffix hdrop).height_top.trans hlength)
  obtain ⟨b, hb, hbheight, hbhash⟩ := h.grown.hashAt_succ (Nat.lt_of_lt_of_le h.branch_lt hsize) hdrop
    (by rw [hlength]; exact hlt)
  rw [hheight] at hbheight hbhash
  have hrooted := h.grown.branch.suffix hb
  obtain ⟨m, hm, rfl⟩ := h.exists_mining hrooted.1
  refine ⟨m, hm, hbhash, hbheight, ?_⟩
  rw [hashAt_eq (Nat.le_of_lt hlt), hrooted.2.1]

theorem Recorded.served (h : Recorded network c ms) (hdistinct : (ms.map fun m => m.header.hash).Nodup)
    {m : Mining} (hm : m ∈ ms) : c.block? m.header.hash = some ⟨m.header, m.moves⟩ := by
  have hmem : (⟨m.header, m.moves⟩ : MinedBlock) ∈ c.blocks := by
    rw [h.blocks_eq]
    exact List.mem_map_of_mem hm
  obtain ⟨b, hb, hhash, hblock⟩ := exists_block (c := c) (List.mem_map_of_mem hmem)
  rw [h.blocks_eq] at hb
  obtain ⟨m', hm', rfl⟩ := List.mem_map.mp hb
  have heq : m' = m := List.inj_on_of_nodup_map hdistinct hm' hm hhash
  rw [heq] at hblock
  exact hblock

theorem hashAt_detached (hbranch : c.branch = header :: c'.branch) (height : UInt64) :
    c'.hashAt height = if height.toNat < c.branch.length then c.hashAt height else none := by
  have hlength : c.branch.length = c'.branch.length + 1 := by rw [hbranch, List.length_cons]
  split
  · next hlt =>
    have hle : height.toNat ≤ c'.branch.length := by omega
    have hsucc : c'.branch.length + 1 - height.toNat = c'.branch.length - height.toNat + 1 := by omega
    rw [hashAt_eq hle, hashAt_eq (Nat.le_of_lt hlt), hlength, hbranch, hsucc, List.drop_succ_cons]
  · next hge => exact hashAt_eq_none (by omega)

theorem Recorded.detached (h : Recorded network c ms) :
    c.tip.height = 0 ∧ c.detach = .error .genesisStays ∨
      0 < c.tip.height ∧ ∃ m ∈ ms, ∃ c', c.detach = .ok (m.header, c') ∧ m.header.tip = c.tip ∧
        c'.tip = m.header.parentTip ∧
        (∀ height, c'.hashAt height = if height < c.tip.height then c.hashAt height else none) ∧
        ∀ game hash, c'.payload game hash = c.payload game hash := by
  have hbranch := h.grown.branch
  change Rooted c.known c.branch at hbranch
  have htip := h.height_tip
  cases heq : c.branch with
  | nil =>
    rw [heq] at htip
    exact .inl ⟨UInt64.toNat_inj.mp htip, by rw [SimulatedChain.detach, heq]⟩
  | cons b below =>
    rw [heq] at hbranch htip
    obtain ⟨m, hm, rfl⟩ := h.exists_mining hbranch.1
    have hdetach : c.detach = .ok (m.header, { c with branch := below }) := by rw [SimulatedChain.detach, heq]
    refine .inr ⟨UInt64.lt_iff_toNat_lt.mpr (by rw [htip]; exact Nat.succ_pos _), m, hm, _, hdetach, ?_,
      hbranch.parentTip.symm, fun height => ?_, fun _ _ => rfl⟩
    · rw [tip, tipHeader, heq]
      rfl
    · simp only [UInt64.lt_iff_toNat_lt, h.height_tip]
      exact hashAt_detached (detach_eq_ok hdetach).1 height

theorem Recorded.lawful (h : Recorded network c ms) (hsize : ms.length ≤ UInt64.size)
    (hdistinct : (ms.map fun m => m.header.hash).Nodup) : Lawful network c ms where
  hashAt_zero := by
    rw [hashAt_eq (Nat.zero_le _)]
    change some (top (c.branch.drop c.branch.length)).hash = _
    rw [List.drop_length]
    rfl
  hashAt_isSome height := by
    rw [UInt64.le_iff_toNat_le, h.height_tip]
    rcases Nat.lt_or_ge c.branch.length height.toNat with hlt | hle
    · rw [hashAt_eq_none hlt]
      exact iff_of_false (by simp) (Nat.not_le.mpr hlt)
    · rw [hashAt_eq hle]
      exact iff_of_true rfl hle
  hashAt_tip := by
    rw [hashAt_eq (Nat.le_of_eq h.height_tip), h.height_tip, Nat.sub_self]
    rfl
  linked _ hless := h.linked hsize hless
  distinct := hdistinct
  detached := h.detached
  served m hm game := by
    refine ⟨(⟨m.header, m.moves⟩ : MinedBlock).payload game, ?_,
      MinedBlock.payloadHeader_payload ⟨m.header, m.moves⟩ game, ?_⟩
    · rw [payload, h.served hdistinct hm]
    · rfl
  offline hoffline :=
    ⟨if_pos hoffline, fun _ => if_pos hoffline, fun _ _ => if_pos hoffline⟩
  online hoffline := by
    rw [← h.network_eq]
    exact ⟨by simp only [answer, hoffline]; rfl, fun _ => by simp only [answer, hoffline]; rfl,
      fun _ _ => by simp only [answer, hoffline]; rfl⟩

theorem offline_after (network : Network) (acts : List Act) :
    (after network acts).offline = (acts.findSome? Act.switch?).getD false := by
  induction acts with
  | nil => rfl
  | cons act earlier ih =>
    cases act with
    | attach moves => exact ih
    | detach =>
      rw [after, Act.after_detach]
      exact ih
    | setOffline offline => rfl

theorem after_online (network : Network) (acts : List Act) :
    after network (acts.filter fun act => act.switch?.isNone) = (after network acts).setOffline false := by
  induction acts with
  | nil => rfl
  | cons act earlier ih =>
    cases act with
    | attach moves =>
      change ((after network (earlier.filter _)).attach moves).2 = _
      rw [ih]
      rfl
    | detach =>
      change Act.after .detach (after network (earlier.filter _)) = _
      rw [ih, after, Act.after_detach, Act.after_detach]
      rfl
    | setOffline offline => exact ih

theorem mined_online (network : Network) (acts : List Act) :
    mined network (acts.filter fun act => act.switch?.isNone) = mined network acts := by
  induction acts with
  | nil => rfl
  | cons act earlier ih =>
    cases act with
    | attach moves =>
      change (_ : Mining) :: mined network (earlier.filter _) = _
      rw [ih, after_online]
      rfl
    | detach => exact ih
    | setOffline offline => exact ih

/-- A chain is lawful after any calls, as long as the numbers in the hashes have not run out and different
blocks have different digests. It is offline as it was last switched, and without any switching the same
blocks would have been mined. -/
theorem lawful_after (network : Network) (acts : List Act)
    (hsize : (mined network acts).length ≤ UInt64.size)
    (hdigests : ∀ m ∈ mined network acts, ∀ m' ∈ mined network acts,
      m.seed.hash = m'.seed.hash → m.seed = m'.seed) :
    Lawful network (after network acts) (mined network acts) ∧
      (after network acts).offline = (acts.findSome? Act.switch?).getD false ∧
      after network (acts.filter fun act => act.switch?.isNone) = (after network acts).setOffline false ∧
      mined network (acts.filter fun act => act.switch?.isNone) = mined network acts :=
  have h := recorded network acts hsize
  ⟨h.lawful hsize (h.nodup hdigests), offline_after network acts, after_online network acts,
    mined_online network acts⟩

/-- A block with moves of two games is taken off, and another is mined in its place while the chain is
offline. -/
def fork : List Act :=
  [.attach [("tally", .bool true)], .setOffline true, .detach,
    .attach [("tally", .null), ("names", .str "a"), ("tally", .bool false)]]

theorem lawful_after_fork :
    Lawful .regtest (after .regtest fork) (mined .regtest fork) ∧
      ∃ m ∈ mined .regtest fork, m.header = ((start .regtest).attach []).1 ∧
        ∃ doc, (after .regtest fork).payload "tally" m.header.hash = .ok doc ∧
          payloadHeader doc = .ok m.header ∧ doc.field? "moves" = some (.arr [.null, .bool false]) := by
  have hdistinct : ((mined .regtest fork).map fun m => m.seed.hash).Nodup := by decide +kernel
  have hlawful := (lawful_after .regtest fork (by decide) fun m hm m' hm' heq => by
    rw [List.inj_on_of_nodup_map hdistinct hm hm' heq]).1
  have hfirst : (⟨⟨genesis.hash, 1, 1⟩, ((start .regtest).attach []).1,
      [("tally", .null), ("names", .str "a"), ("tally", .bool false)]⟩ : Mining) ∈ mined .regtest fork :=
    .tail _ (.head _)
  exact ⟨hlawful, _, hfirst, rfl, hlawful.served _ hfirst "tally"⟩

end SimulatedChain

end ChainFollower
