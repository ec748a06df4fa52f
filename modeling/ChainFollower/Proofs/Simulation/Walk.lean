import ChainFollower.Proofs.Chain.Payload
import ChainFollower.Proofs.Simulation.Follow

namespace ChainFollower

namespace Simulation

open SimulatedChain (Rooted top)

variable {ν τ : Type} {S : Stores ν τ} {side : Side} {T : Terms} {w w' : World ν τ} {held held' : Holdings}
  {f f' : Follower} {v : View} {bs below : List Header} {b : Header} {c : SimulatedChain} {call call' : Call}

/-- A notified block is applied or undone while in step, and no walk goes higher than the last block. -/
def Heeds (T : Terms) (f : Follower) : Cause → Prop
  | .notified => f.state = .synced
  | .walk _ target => target.height.toNat ≤ T.summit

/-- The walk ends above so many blocks. -/
def Climbs (height : Nat) : Cause → Prop
  | .notified => True
  | .walk _ target => height < target.height.toNat

/-- What a follower knows while its call waits for a reply. -/
def Knows (side : Side) (T : Terms) (c : SimulatedChain) (held : Holdings) (f : Follower) (v : View)
    (bs : List Header) : Call → Prop
  | .target _ => True
  | .compare _ target tip => tip = v.current.tip ∧ target.height.toNat ≤ T.summit
  | .fetchStale _ target tip =>
    tip = v.current.tip ∧ target.height.toNat ≤ T.summit ∧ ¬bs <:+ c.branch
  | .next _ target tip => tip = v.current.tip ∧ bs.length < target.height.toNat ∧
    target.height.toNat ≤ T.summit
  | .fetchNext _ target tip requested =>
    tip = v.current.tip ∧ bs.length < target.height.toNat ∧ target.height.toNat ≤ T.summit ∧
      requested.height.toNat = bs.length + 1
  | .lookup cause view _ => view = v ∧ Heeds T f cause ∧ ¬bs <:+ c.branch
  | .revert cause view _ record => view = v ∧ Heeds T f cause ∧ ¬bs <:+ c.branch ∧
      side.Undoable record.undo ∧ ∃ b below, bs = b :: below ∧ record.parent = b.parent
  | .retreat cause stored => Heeds T f cause ∧ ¬bs <:+ c.branch ∧
      ∃ b below, bs = b :: below ∧ stored.tip = (top below).tip ∧ side.Valid below.length stored.state
  | .apply cause view header _ => view = v ∧ Heeds T f cause ∧ Climbs bs.length cause ∧
      Rooted c.known (header :: bs)
  | .advance cause header step => Heeds T f cause ∧ Climbs bs.length cause ∧ Rooted c.known (header :: bs) ∧
      side.Valid (bs.length + 1) step.state ∧ side.Undoable step.undo
  | .prune cause tip below => tip = v.current.tip ∧ Heeds T f cause ∧
      Covered side T.depth c.known held below bs
  | _ => False

/-- With these blocks the end of the chain is reached, or the walk goes there. -/
def Aims (c : SimulatedChain) (bs : List Header) (cause : Cause) : Prop :=
  bs = c.branch ∨ ∃ attempt, cause = .walk attempt c.tip

/-- The call ends in step at the end of the chain. -/
def Homing (c : SimulatedChain) (bs : List Header) : Call → Prop
  | .target _ => True
  | .compare _ target _ => target = c.tip
  | .fetchStale _ target _ => target = c.tip
  | .next _ target _ => target = c.tip ∧ bs <:+ c.branch
  | .fetchNext _ target _ requested => target = c.tip ∧ ∃ b, b :: bs <:+ c.branch ∧ requested = b.tip
  | .lookup cause _ _ => ∃ attempt, cause = .walk attempt c.tip
  | .revert cause _ _ _ => ∃ attempt, cause = .walk attempt c.tip
  | .retreat cause _ => ∃ attempt, cause = .walk attempt c.tip
  | .apply cause _ header _ => header :: bs <:+ c.branch ∧ Aims c (header :: bs) cause
  | .advance cause header _ => header :: bs <:+ c.branch ∧ Aims c (header :: bs) cause
  | .prune cause _ _ => bs <:+ c.branch ∧ Aims c bs cause
  | _ => False

/-- In step at the end of the chain. -/
def Settled (c : SimulatedChain) (f : Follower) (bs : List Header) : Prop := f.state = .synced ∧ bs = c.branch

/-- What the attempts after this one can take. -/
def spare (T : Terms) (attempt : Nat) : Nat := (T.retry.attempts - attempt) * (20 * (T.summit + 1))

def descent (T : Terms) : Cause → Nat
  | .notified => 0
  | .walk attempt _ => spare T attempt + 6 * (T.summit + 1)

def ascent (T : Terms) (height : Nat) : Cause → Nat
  | .notified => 0
  | .walk attempt target => spare T attempt + 5 * (target.height.toNat - height)

/-- More than the replies that a call still waits for, with so many blocks applied. -/
def rank (T : Terms) (height : Nat) : Call → Nat
  | .target attempt => spare T attempt + 12 * (T.summit + 1)
  | .compare attempt _ _ => spare T attempt + 6 * (T.summit + 1) + 5 * height + 5
  | .fetchStale attempt _ _ => spare T attempt + 6 * (T.summit + 1) + 5 * height + 4
  | .lookup cause _ _ => descent T cause + 5 * height + 3
  | .revert cause _ _ _ => descent T cause + 5 * height + 2
  | .retreat cause _ => descent T cause + 5 * height + 1
  | .next attempt target _ => spare T attempt + 5 * (target.height.toNat - height) + 4
  | .fetchNext attempt target _ _ => spare T attempt + 5 * (target.height.toNat - height) + 3
  | .apply cause _ _ _ => ascent T height cause + 2
  | .advance cause _ _ => ascent T height cause + 1
  | .prune .notified _ _ => 0
  | .prune (.walk attempt target) _ _ => spare T attempt + 5 * (target.height.toNat - height) + 5
  | _ => 0

theorem spare_succ {attempt : Nat} (h : attempt < T.retry.attempts) :
    spare T (attempt + 1) + 20 * (T.summit + 1) = spare T attempt := by
  unfold spare
  obtain ⟨left, hleft⟩ := Nat.exists_eq_add_of_lt h
  rw [show T.retry.attempts - attempt = T.retry.attempts - (attempt + 1) + 1 by omega, Nat.add_mul,
    Nat.one_mul]

/-- The call goes on with one of these, or it is over. -/
def Goes (P : Call → Prop) (Q : Prop) : Follower.Next → Prop
  | .asks call => P call
  | .rests _ call => P call
  | .returned _ => Q
  | .halted _ => False

theorem Goes.imp {P P' : Call → Prop} {Q : Prop} {next : Follower.Next} (h : Goes P Q next)
    (himp : ∀ call, P call → P' call) : Goes P' Q next := by
  cases next with
  | asks call => exact himp call h
  | rests d call => exact himp call h
  | returned result => exact h
  | halted halt => exact h

/-- What a reply leads to: there is less left of the call, and at the end of all mining a call that leads
to the last block still does, and no other call comes there without being in step. -/
def Comes (side : Side) (T : Terms) (c : SimulatedChain) (bs : List Header) (call : Call) (held : Holdings)
    (p : Follower × Follower.Next) : Prop :=
  ∃ v' bs', Follows side T c.known held p.1 v' bs' ∧
    Goes (fun call' => Knows side T c held p.1 v' bs' call' ∧
      rank T bs'.length call' < rank T bs.length call) True p.2 ∧
    (c.branch.length = T.summit →
      (Homing c bs call → Goes (Homing c bs') (Settled c p.1 bs') p.2) ∧
      (bs.length < T.summit → bs'.length < T.summit ∨ Goes (Homing c bs') (Settled c p.1 bs') p.2))

theorem comes_asks (hf : Follows side T c.known held f v bs) (hk : Knows side T c held f v bs call')
    (hr : rank T bs.length call' < rank T bs.length call)
    (hh : c.branch.length = T.summit → Homing c bs call → Homing c bs call') :
    Comes side T c bs call held (f, .asks call') :=
  ⟨v, bs, hf, ⟨hk, hr⟩, fun hlast => ⟨hh hlast, .inl⟩⟩

theorem comes_returned (hf : Follows side T c.known held f v bs) (result : Follower.Outcome)
    (hh : c.branch.length = T.summit → Homing c bs call → Settled c f bs) :
    Comes side T c bs call held (f, .returned result) :=
  ⟨v, bs, hf, trivial, fun hlast => ⟨hh hlast, .inl⟩⟩

/-- A walk that fails is begun again or given up. -/
theorem comes_walkFailed (hf : Follows side T c.known held f v bs) {attempt : Nat} (e : SyncError)
    (hr : spare T attempt ≤ rank T bs.length call)
    (hh : c.branch.length = T.summit → ¬Homing c bs call) :
    Comes side T c bs call held (f.walkFailed attempt e) := by
  have hgiven : Comes side T c bs call held (f.fail, .returned (.ok ())) :=
    comes_returned hf.fail _ fun hlast hhoming => absurd hhoming (hh hlast)
  unfold Follower.walkFailed
  split
  · split
    · next d hwait =>
      have hlt : attempt < T.retry.attempts := by
        rw [hf.retry, RetryPolicy.wait?] at hwait
        exact Decidable.byContradiction fun hge => by rw [if_neg hge] at hwait; cases hwait
      have hspare := spare_succ hlt
      refine ⟨v, bs, hf, ⟨trivial, ?_⟩, fun hlast => ⟨fun hhoming => absurd hhoming (hh hlast), .inl⟩⟩
      change spare T (attempt + 1) + 12 * (T.summit + 1) < rank T bs.length call
      omega
    · exact hgiven
  · exact hgiven

theorem answer_info (hc : c.Grown) : c.answer .info = .ok ⟨c.network, c.tip⟩ := by
  unfold SimulatedChain.answer
  rw [hc.online]
  rfl

theorem answer_hashAt (hc : c.Grown) (height : UInt64) :
    c.answer (.hashAt height) = .ok (c.hashAt height) := by
  unfold SimulatedChain.answer
  rw [hc.online]
  rfl

theorem answer_block (hc : c.Grown) (game : String) (hash : Hash) :
    c.answer (.block game hash) = c.payload game hash := by
  unfold SimulatedChain.answer
  rw [hc.online]
  rfl

/-- The host's reply to a call, and what the follower makes of it. -/
def Proceeds (S : Stores ν τ) (side : Side) (T : Terms) (w : World ν τ) (f : Follower) (bs : List Header)
    (call : Call) : Prop :=
  ∃ reply w', (S.host side).answer (f.request call) w = (reply, w') ∧ Apart S side w w' ∧
    Comes side T w.chain bs call (S.held side w') (f.proceed call reply)

theorem Charted.tip_height (hc : Charted T c) : c.tip.height.toNat = c.branch.length :=
  hc.grown.branch.height_top

theorem Charted.tip_height_le (hc : Charted T c) : c.tip.height.toNat ≤ T.summit := by
  rw [hc.tip_height]
  exact hc.most _ hc.grown.branch

theorem Follows.height (hf : Follows side T known held f v bs) : v.current.tip.height.toNat = bs.length := by
  rw [hf.tip]
  exact hf.rooted.height_top

/-- A hash that a follower is on says which blocks it has applied. -/
theorem Follows.eq_of_hash (hf : Follows side T c.known held f v bs) (hc : Charted T c)
    {cs : List Header} (hcs : Rooted c.known cs) (h : (top cs).hash = v.current.tip.hash) : cs = bs := by
  rw [hf.tip] at h
  exact SimulatedChain.Rooted.unique hc.distinct hc.grown.genesis hcs hf.rooted h

/-- The payload of a mined block is served, and names its header. -/
theorem payload_of_known (hc : Charted T c) (hb : b ∈ c.known) (game : String) :
    ∃ block, c.payload game b.hash = .ok block ∧ payloadHeader block = .ok b := by
  obtain ⟨m, hm, hhash, hfind⟩ := SimulatedChain.exists_block hb
  have heq := SimulatedChain.eq_of_hash hc.distinct (List.mem_map_of_mem hm) hb hhash
  refine ⟨m.payload game, by rw [SimulatedChain.payload, hfind], ?_⟩
  rw [m.payloadHeader_payload, heq]

/-- What is served is the payload of a mined block. -/
theorem known_of_payload {game : String} {hash : Hash} {block : Json} {header : Header}
    (h : c.payload game hash = .ok block) (hheader : payloadHeader block = .ok header) :
    header ∈ c.known := by
  unfold SimulatedChain.payload at h
  split at h
  · next m hfind =>
    cases h
    rw [m.payloadHeader_payload] at hheader
    cases hheader
    exact List.mem_map_of_mem (List.mem_of_find?_eq_some hfind)
  · cases h

theorem proceeds_target (hc : Charted T w.chain) (hf : Follows side T w.chain.known (S.held side w) f v bs)
    (attempt : Nat) : Proceeds S side T w f bs (.target attempt) := by
  have hsettled : w.chain.tip = v.current.tip → Settled w.chain (f.setState .synced) bs := by
    intro htip
    exact ⟨rfl, (hf.eq_of_hash hc hc.grown.branch (congrArg Tip.hash htip)).symm⟩
  refine ⟨_, w, S.answer_chain side .info w, .refl S side w, ?_⟩
  rw [answer_info hc.grown]
  change Comes side T w.chain bs (.target attempt) (S.held side w) (f.targetKnown attempt w.chain.tip)
  unfold Follower.targetKnown
  rw [hf.view]
  simp only
  split
  · next htip => exact comes_returned (hf.setState (by decide)) _ fun _ _ => hsettled htip
  · split
    · next hlow =>
      have hzero : v.initial.height.toNat = 0 := by rw [hf.initial]; rfl
      have hlt := UInt64.lt_iff_toNat_lt.mp hlow.2
      omega
    · have hmost := hc.most bs hf.rooted
      refine comes_asks hf ⟨rfl, hc.tip_height_le⟩ ?_ fun _ _ => rfl
      change spare T attempt + 6 * (T.summit + 1) + 5 * bs.length + 5 < spare T attempt + 12 * (T.summit + 1)
      omega

/-- On the canonical chain a walk goes up, or ends in step. -/
theorem goes_climb (hc : Charted T c) (hf : Follows side T c.known held f v bs) (attempt : Nat)
    {target : Tip} (htarget : target.height.toNat ≤ T.summit) :
    Follows side T c.known held (f.climb attempt target v.current.tip).1 v bs ∧
    Goes (fun call' => Knows side T c held (f.climb attempt target v.current.tip).1 v bs call' ∧
        rank T bs.length call' ≤ ascent T bs.length (.walk attempt target) + 4) True
      (f.climb attempt target v.current.tip).2 ∧
    (c.branch.length = T.summit → bs <:+ c.branch → Aims c bs (.walk attempt target) →
      Goes (Homing c bs) (Settled c (f.climb attempt target v.current.tip).1 bs)
        (f.climb attempt target v.current.tip).2) := by
  have hheight := hf.height
  unfold Follower.climb
  split
  · next hle =>
    refine ⟨hf.setState (by decide), trivial, fun _ hsuffix haims => ⟨rfl, ?_⟩⟩
    rcases haims with heq | ⟨_, haims⟩
    · exact heq
    · obtain ⟨rfl, rfl⟩ := Cause.walk.inj haims
      rw [UInt64.le_iff_toNat_le, hc.tip_height, hheight] at hle
      exact hsuffix.eq_of_length_le hle
  · next hgt =>
    rw [UInt64.le_iff_toNat_le, hheight] at hgt
    refine ⟨hf, ⟨⟨rfl, by omega, htarget⟩, Nat.le_refl _⟩, fun hlast hsuffix haims => ?_⟩
    rcases haims with rfl | ⟨_, haims⟩
    · exact absurd (hlast ▸ htarget) hgt
    · exact ⟨(Cause.walk.inj haims).2, hsuffix⟩

theorem proceeds_compare (hc : Charted T w.chain) (hf : Follows side T w.chain.known (S.held side w) f v bs)
    {attempt : Nat} {target tip : Tip}
      (hk : Knows side T w.chain (S.held side w) f v bs (.compare attempt target tip)) :
    Proceeds S side T w f bs (.compare attempt target tip) := by
  obtain ⟨rfl, htarget⟩ := hk
  have hcanonical : w.chain.hashAt v.current.tip.height =
    some v.current.tip.hash ↔ bs <:+ w.chain.branch := by
    rw [hf.tip]
    exact hc.grown.hashAt_top_iff hc.distinct hf.rooted
  refine ⟨_, w, S.answer_chain side (.hashAt v.current.tip.height) w, .refl S side w, ?_⟩
  rw [answer_hashAt hc.grown]
  change Comes side T w.chain bs (.compare attempt target v.current.tip) (S.held side w)
    (f.compared attempt target v.current.tip (w.chain.hashAt v.current.tip.height))
  unfold Follower.compared
  split
  · next hhash =>
    have hsuffix := hcanonical.mp hhash
    have hmost := hc.most bs hf.rooted
    unfold Follower.forkReached
    generalize hg : (if v.current.tip.height < target.height then f.setState .catchingUp else f) = g
    have hfg : Follows side T w.chain.known (S.held side w) g v bs := by
      rw [← hg]
      split
      · exact hf.setState (by decide)
      · exact hf
    obtain ⟨hfollows, hgoes, hhoming⟩ := goes_climb hc hfg attempt htarget
    refine ⟨v, bs, hfollows, hgoes.imp fun call' hcall => ⟨hcall.1, Nat.lt_of_le_of_lt hcall.2 ?_⟩,
      fun hlast => ⟨fun h => hhoming hlast hsuffix (.inr ⟨attempt, congrArg _ h⟩), .inl⟩⟩
    change spare T attempt + 5 * (target.height.toNat - bs.length) + 4 <
      spare T attempt + 6 * (T.summit + 1) + 5 * bs.length + 5
    omega
  · next hhash =>
    have hstale : ¬bs <:+ w.chain.branch := fun h => hhash (hcanonical.mpr h)
    refine comes_asks (hf.setState (by decide)) ⟨rfl, htarget, hstale⟩ ?_ fun _ h => h
    exact Nat.lt_succ_self _

theorem proceeds_fetchStale (hc : Charted T w.chain)
    (hf : Follows side T w.chain.known (S.held side w) f v bs)
    {attempt : Nat} {target tip : Tip}
    (hk : Knows side T w.chain (S.held side w) f v bs (.fetchStale attempt target tip)) :
    Proceeds S side T w f bs (.fetchStale attempt target tip) := by
  obtain ⟨rfl, htarget, hstale⟩ := hk
  obtain ⟨block, hpayload, hheader⟩ := payload_of_known hc (hf.rooted.top_mem hc.grown.genesis) f.game
  have hcheck : Follower.checkBlock v.current.tip block = .ok (top bs) :=
    Follower.checkBlock_of_tip hheader hf.tip.symm
  refine ⟨_, w, S.answer_chain side (.block f.game v.current.tip.hash) w, .refl S side w, ?_⟩
  rw [answer_block hc.grown, show v.current.tip.hash = (top bs).hash from congrArg Tip.hash hf.tip, hpayload]
  change Comes side T w.chain bs (.fetchStale attempt target v.current.tip) (S.held side w)
    (f.staleFetched attempt target v.current.tip block)
  unfold Follower.staleFetched
  rw [hcheck, hf.view]
  exact comes_asks hf ⟨rfl, htarget, hstale⟩ (Nat.lt_succ_self _) fun _ h => ⟨attempt, congrArg _ h⟩

theorem proceeds_next (hc : Charted T w.chain) (hf : Follows side T w.chain.known (S.held side w) f v bs)
    {attempt : Nat} {target tip : Tip}
      (hk : Knows side T w.chain (S.held side w) f v bs (.next attempt target tip)) :
    Proceeds S side T w f bs (.next attempt target tip) := by
  obtain ⟨rfl, hlt, htarget⟩ := hk
  have hsummit := hc.summit_le
  have habove : (v.current.tip.height + 1).toNat = bs.length + 1 := by
    rw [UInt64.toNat_add, hf.height]
    exact Nat.mod_eq_of_lt (Nat.lt_of_le_of_lt (show bs.length + 1 ≤ 2 ^ 60 by omega) (by decide))
  -- While the walk goes to the last block there is a canonical block above.
  have hnext : w.chain.branch.length = T.summit → Homing w.chain bs (.next attempt target v.current.tip) →
      ∃ b, b :: bs <:+ w.chain.branch ∧ b.height = v.current.tip.height + 1 ∧
        w.chain.hashAt (v.current.tip.height + 1) = some b.hash := by
    rintro hlast ⟨rfl, hsuffix⟩
    rw [hc.tip_height] at hlt
    rw [hf.tip]
    exact hc.grown.hashAt_succ (Nat.lt_of_le_of_lt (show w.chain.branch.length ≤ 2 ^ 60 by omega) (by decide))
      hsuffix hlt
  refine ⟨_, w, S.answer_chain side (.hashAt (v.current.tip.height + 1)) w, .refl S side w, ?_⟩
  rw [answer_hashAt hc.grown]
  change Comes side T w.chain bs (.next attempt target v.current.tip) (S.held side w)
    (f.nextKnown attempt target v.current.tip (w.chain.hashAt (v.current.tip.height + 1)))
  cases hhash : w.chain.hashAt (v.current.tip.height + 1) with
  | none =>
    refine comes_walkFailed hf _ ?_ fun hlast h => ?_
    · exact Nat.le_add_right_of_le (Nat.le_add_right _ _)
    · obtain ⟨b, _, _, hb⟩ := hnext hlast h
      rw [hhash] at hb
      cases hb
  | some hash =>
    refine comes_asks hf ⟨rfl, hlt, htarget, habove⟩ (Nat.lt_succ_self _) fun hlast h => ⟨h.1, ?_⟩
    obtain ⟨b, hb, hheight, hbhash⟩ := hnext hlast h
    rw [hhash] at hbhash
    refine ⟨b, hb, ?_⟩
    rw [← hheight, Option.some.inj hbhash]
    rfl

/-- A block whose parent is the local tip lies on the local blocks. -/
theorem Follows.rooted_cons (hf : Follows side T c.known held f v bs) (hc : Charted T c) (hb : b ∈ c.known)
    (hne : b ≠ SimulatedChain.genesis) (hparent : b.parent = v.current.tip.hash) :
    Rooted c.known (b :: bs) := by
  obtain ⟨below, hbelow⟩ := (hc.grown.rooted b hb).resolve_left hne
  have heq := hf.eq_of_hash hc hbelow.2.2.2 (hbelow.2.1.symm.trans hparent)
  exact heq ▸ hbelow

theorem proceeds_fetchNext (hc : Charted T w.chain) (hf : Follows side T w.chain.known (S.held side w) f v bs)
    {attempt : Nat} {target tip requested : Tip}
    (hk : Knows side T w.chain (S.held side w) f v bs (.fetchNext attempt target tip requested)) :
    Proceeds S side T w f bs (.fetchNext attempt target tip requested) := by
  obtain ⟨rfl, hlt, htarget, habove⟩ := hk
  have hspare : spare T attempt ≤ rank T bs.length (.fetchNext attempt target v.current.tip requested) :=
    Nat.le_add_right_of_le (Nat.le_add_right _ _)
  have hhoming : Homing w.chain bs (.fetchNext attempt target v.current.tip requested) →
      ∃ b block, b :: bs <:+ w.chain.branch ∧ requested = b.tip ∧ b.parent = v.current.tip.hash ∧
        w.chain.payload f.game requested.hash = .ok block ∧ payloadHeader block = .ok b := by
    rintro ⟨_, b, hb, rfl⟩
    have hrooted := hc.grown.branch.suffix hb
    obtain ⟨block, hpayload, hheader⟩ := payload_of_known hc hrooted.1 f.game
    exact ⟨b, block, hb, rfl, hrooted.2.1.trans (congrArg Tip.hash hf.tip).symm, hpayload, hheader⟩
  refine ⟨_, w, S.answer_chain side (.block f.game requested.hash) w, .refl S side w, ?_⟩
  rw [answer_block hc.grown]
  cases hpayload : w.chain.payload f.game requested.hash with
  | error e =>
    refine comes_walkFailed hf _ hspare fun _ h => ?_
    obtain ⟨_, _, _, _, _, hserved, _⟩ := hhoming h
    rw [hpayload] at hserved
    cases hserved
  | ok block =>
    have hsame : ∀ h : Homing w.chain bs (.fetchNext attempt target v.current.tip requested),
        ∃ b, b :: bs <:+ w.chain.branch ∧ b.parent = v.current.tip.hash ∧
          Follower.checkBlock requested block = .ok b := by
      intro h
      obtain ⟨b, block', hb, hrequested, hparent, hserved, hheader⟩ := hhoming h
      rw [hpayload] at hserved
      obtain rfl := Except.ok.inj hserved
      exact ⟨b, hb, hparent, Follower.checkBlock_of_tip hheader hrequested.symm⟩
    change Comes side T w.chain bs (.fetchNext attempt target v.current.tip requested) (S.held side w)
      (f.nextFetched attempt target v.current.tip requested block)
    unfold Follower.nextFetched
    cases hcheck : Follower.checkBlock requested block with
    | error e =>
      refine comes_walkFailed hf _ hspare fun _ h => ?_
      obtain ⟨_, _, _, hok⟩ := hsame h
      rw [hcheck] at hok
      cases hok
    | ok header =>
      obtain ⟨hheader, htip⟩ := Follower.checkBlock_eq_ok hcheck
      simp only
      split
      · next hparent =>
        refine comes_walkFailed hf _ hspare fun _ h => ?_
        obtain ⟨b, _, hb, hok⟩ := hsame h
        rw [hcheck] at hok
        exact hparent (Except.ok.inj hok ▸ hb)
      · next hparent =>
        have hne : header ≠ SimulatedChain.genesis := by
          rintro rfl
          rw [← htip] at habove
          cases habove
        have hrooted := hf.rooted_cons hc (known_of_payload hpayload hheader) hne (not_not.mp hparent)
        rw [hf.view]
        refine comes_asks hf ⟨rfl, htarget, hlt, hrooted⟩ (Nat.lt_succ_self _) fun _ h => ?_
        obtain ⟨b, hb, _, hok⟩ := hsame h
        rw [hcheck] at hok
        exact ⟨Except.ok.inj hok ▸ hb, .inr ⟨attempt, congrArg _ h.1⟩⟩

theorem exists_cons_of_stale (h : ¬bs <:+ c.branch) : ∃ b below, bs = b :: below := by
  cases bs with
  | nil => exact absurd List.nil_suffix h
  | cons b below => exact ⟨b, below, rfl⟩

theorem proceeds_lookup (hc : Charted T w.chain) (hf : Follows side T w.chain.known (S.held side w) f v bs)
    {cause : Cause} {view : View} {block : Json}
    (hk : Knows side T w.chain (S.held side w) f v bs (.lookup cause view block)) :
    Proceeds S side T w f bs (.lookup cause view block) := by
  obtain ⟨rfl, hheeds, hstale⟩ := hk
  obtain ⟨b, below, rfl⟩ := exists_cons_of_stale hstale
  obtain ⟨_, record, hrecord, hparent, hundo⟩ := hf.covered.undo hc hstale
  obtain ⟨w', hreply, hapart, hheld⟩ := S.answer_undo side view.current.tip w
  refine ⟨_, w', hreply, hapart, ?_⟩
  rw [hheld, hf.tip]
  change Comes side T w.chain _ _ _ (f.recordFound cause view block ((S.held side w).record b.tip))
  rw [hrecord]
  exact comes_asks hf ⟨rfl, hheeds, hstale, hundo, b, below, rfl, hparent⟩ (Nat.lt_succ_self _) fun _ h => h

theorem proceeds_revert (hc : Charted T w.chain) (hf : Follows side T w.chain.known (S.held side w) f v bs)
    (hsize : w.buffer.size ≤ Buffered.maxSize) {cause : Cause} {view : View} {block : Json}
    {record : UndoRecord}
      (hk : Knows side T w.chain (S.held side w) f v bs (.revert cause view block record)) :
    Proceeds S side T w f bs (.revert cause view block record) := by
  obtain ⟨rfl, hheeds, hstale, hundo, b, below, rfl, hparent⟩ := hk
  have hmost := hc.most _ hf.rooted
  have hsummit := hc.summit_le
  rw [List.length_cons] at hmost
  obtain ⟨before, w', hreply, hapart, hheld, hvalid⟩ := S.answer_backward side view.network block hsize
    hf.valid hundo (show below.length < 2 ^ 60 by omega)
  refine ⟨_, w', hreply, hapart, ?_⟩
  change Comes side T w.chain _ _ _ (f.reverted cause view record before)
  have htip : (⟨lower view.current.tip.height, record.parent⟩ : Tip) = (top below).tip := by
    rw [hf.tip, hparent]
    exact hf.rooted.parentTip
  unfold Follower.reverted
  rw [hheld, htip]
  exact comes_asks hf ⟨hheeds, hstale, b, below, rfl, rfl, hvalid⟩ (Nat.lt_succ_self _) fun _ h => h

theorem proceeds_retreat (hc : Charted T w.chain) (hf : Follows side T w.chain.known (S.held side w) f v bs)
    {cause : Cause} {stored : StoredState}
    (hk : Knows side T w.chain (S.held side w) f v bs (.retreat cause stored)) :
    Proceeds S side T w f bs (.retreat cause stored) := by
  obtain ⟨hheeds, hstale, b, below, rfl, htip, hvalid⟩ := hk
  obtain ⟨w', hreply, hapart, hheld⟩ := S.answer_commit side (.withoutUndo stored.tip stored.state) w
  have hcovered : Covered side T.depth w.chain.known (S.held side w') 0 below := by
    rw [hheld]
    exact (hf.covered.undo hc hstale).1
  have hnew := hf.setCurrent hf.rooted.2.2.2 htip hvalid hcovered
  refine ⟨_, w', hreply, hapart, ?_⟩
  change Comes side T w.chain _ _ _ (f.retreated cause stored)
  cases cause with
  | notified =>
    refine ⟨_, below, hnew, trivial, fun _ => ⟨?_, fun hlt => .inl (Nat.lt_of_succ_lt hlt)⟩⟩
    rintro ⟨_, h⟩
    cases h
  | walk attempt target =>
    refine ⟨_, below, hnew, ⟨⟨rfl, hheeds⟩, ?_⟩, fun _ => ⟨?_, fun hlt => .inl (Nat.lt_of_succ_lt hlt)⟩⟩
    · change spare T attempt + 6 * (T.summit + 1) + 5 * below.length + 5 <
        spare T attempt + 6 * (T.summit + 1) + 5 * (below.length + 1) + 1
      omega
    · rintro ⟨_, h⟩
      exact (Cause.walk.inj h).2

theorem proceeds_apply (hc : Charted T w.chain) (hf : Follows side T w.chain.known (S.held side w) f v bs)
    (hsize : w.buffer.size ≤ Buffered.maxSize) {cause : Cause} {view : View} {header : Header} {block : Json}
    (hk : Knows side T w.chain (S.held side w) f v bs (.apply cause view header block)) :
    Proceeds S side T w f bs (.apply cause view header block) := by
  obtain ⟨rfl, hheeds, hclimbs, hrooted⟩ := hk
  have hmost := hc.most _ hrooted
  have hsummit := hc.summit_le
  rw [List.length_cons] at hmost
  obtain ⟨step, w', hreply, hapart, hheld, hvalid, hundo⟩ := S.answer_forward side view.network block hsize
    hf.valid (show bs.length < 2 ^ 60 by omega)
  refine ⟨_, w', hreply, hapart, ?_⟩
  change Comes side T w.chain _ _ _ (f, .asks (.advance cause header step))
  rw [hheld]
  exact comes_asks hf ⟨hheeds, hclimbs, hrooted, hvalid, hundo⟩ (Nat.lt_succ_self _) fun _ h => h

/-- A block has been applied, and what there was to prune is gone. -/
theorem goes_applied (hc : Charted T c) (hf : Follows side T c.known held f v bs) {cause : Cause}
    (hheeds : Heeds T f cause) :
    Follows side T c.known held (f.applied cause v.current.tip).1 v bs ∧
    Goes (fun call' => Knows side T c held (f.applied cause v.current.tip).1 v bs call' ∧
        rank T bs.length call' ≤ ascent T bs.length cause + 4) True (f.applied cause v.current.tip).2 ∧
    (c.branch.length = T.summit → bs <:+ c.branch → Aims c bs cause →
      Goes (Homing c bs) (Settled c (f.applied cause v.current.tip).1 bs)
        (f.applied cause v.current.tip).2) := by
  cases cause with
  | notified =>
    refine ⟨hf, trivial, fun _ _ haims => ⟨hheeds, ?_⟩⟩
    rcases haims with heq | ⟨_, haims⟩
    · exact heq
    · cases haims
  | walk attempt target => exact goes_climb hc hf attempt hheeds

theorem rank_after {cause : Cause} (h : Climbs bs.length cause) (tip : Tip) (floor : UInt64) :
    rank T (bs.length + 1) (.prune cause tip floor) < ascent T bs.length cause + 1 := by
  cases cause with
  | notified => exact Nat.zero_lt_succ _
  | walk attempt target =>
    change bs.length < target.height.toNat at h
    change spare T attempt + 5 * (target.height.toNat - (bs.length + 1)) + 5 <
      spare T attempt + 5 * (target.height.toNat - bs.length) + 1
    omega

/-- What is left after pruning is less than what pruning leaves. -/
theorem goes_applied_lt (hc : Charted T c) (hf : Follows side T c.known held f v bs) {cause : Cause}
    (hheeds : Heeds T f cause) {n : Nat} (hn : ∀ tip floor, rank T bs.length (.prune cause tip floor) ≤ n) :
    Goes (fun call' => Knows side T c held (f.applied cause v.current.tip).1 v bs call' ∧
      rank T bs.length call' < n) True (f.applied cause v.current.tip).2 := by
  have hgoes := (goes_applied hc hf hheeds).2.1
  cases cause with
  | notified => trivial
  | walk attempt target =>
    refine hgoes.imp fun call' hcall => ⟨hcall.1, ?_⟩
    have hprune := hn v.current.tip 0
    change spare T attempt + 5 * (target.height.toNat - bs.length) + 5 ≤ n at hprune
    have hle := hcall.2
    change rank T bs.length call' ≤ spare T attempt + 5 * (target.height.toNat - bs.length) + 4 at hle
    omega

theorem proceeds_prune (hc : Charted T w.chain) (hf : Follows side T w.chain.known (S.held side w) f v bs)
    {cause : Cause} {tip : Tip} {floor : UInt64}
    (hk : Knows side T w.chain (S.held side w) f v bs (.prune cause tip floor)) :
    Proceeds S side T w f bs (.prune cause tip floor) := by
  obtain ⟨rfl, hheeds, hcovered⟩ := hk
  obtain ⟨count, w', hreply, hapart, hheld⟩ := S.answer_prune side floor w
  have hkept : Follows side T w.chain.known (S.held side w') f v bs :=
    { hf with covered := by rw [hheld]; exact hcovered.dropBelow }
  obtain ⟨hfollows, _, hhoming⟩ := goes_applied hc hkept hheeds
  refine ⟨_, w', hreply, hapart, v, bs, hfollows, ?_, fun hlast => ⟨fun h => hhoming hlast h.1 h.2, .inl⟩⟩
  exact goes_applied_lt hc hkept hheeds fun _ _ => by cases cause <;> exact Nat.le_refl _

theorem proceeds_advance (hc : Charted T w.chain) (hf : Follows side T w.chain.known (S.held side w) f v bs)
    {cause : Cause} {header : Header} {step : ForwardStep}
    (hk : Knows side T w.chain (S.held side w) f v bs (.advance cause header step)) :
    Proceeds S side T w f bs (.advance cause header step) := by
  obtain ⟨hheeds, hclimbs, hrooted, hvalid, hundo⟩ := hk
  obtain ⟨w', hreply, hapart, hheld⟩ :=
    S.answer_commit side (.forward header.tip step.state header.parent step.undo) w
  have hcovered : Covered side T.depth w.chain.known (S.held side w') 0 (header :: bs) := by
    rw [hheld]
    exact hf.covered.forward hrooted step.state hundo
  have hnew : Follows side T w.chain.known (S.held side w') (f.setCurrent ⟨header.tip, step.state⟩)
      { v with current := ⟨header.tip, step.state⟩ } (header :: bs) :=
        hf.setCurrent hrooted rfl hvalid hcovered
  have hmost := hc.most _ hrooted
  -- Whoever has come to the height of the last block is on it.
  have hreach : w.chain.branch.length = T.summit → ¬(header :: bs).length < T.summit →
      header :: bs <:+ w.chain.branch ∧ Aims w.chain (header :: bs) cause := by
    intro hlast hge
    have heq := hc.last hlast _ hrooted (by omega)
    exact ⟨heq ▸ List.suffix_rfl, .inl heq⟩
  refine ⟨_, w', hreply, hapart, ?_⟩
  change Comes side T w.chain _ _ _ (f.advanced cause header step)
  unfold Follower.advanced
  cases hfloor : (f.setCurrent ⟨header.tip, step.state⟩).pruneBelow? header.height with
  | some floor =>
    have hraised : Covered side T.depth w.chain.known (S.held side w') floor (header :: bs) := by
      unfold Follower.pruneBelow? at hfloor
      split at hfloor
      · next depth hpruning =>
        split at hfloor
        · next hle =>
          obtain rfl := Option.some.inj hfloor
          have hdepth := hf.pruning depth hpruning
          have hheight := hrooted.2.2.1
          refine hcovered.raise hrooted ?_
          rw [UInt64.toNat_sub_of_le _ _ hle, List.length_cons]
          rw [UInt64.le_iff_toNat_le] at hle
          omega
        · cases hfloor
      · cases hfloor
    have hheeds' : Heeds T (f.setCurrent ⟨header.tip, step.state⟩) cause := by
      cases cause <;> exact hheeds
    simp only [hfloor]
    refine ⟨_, header :: bs, hnew, ⟨⟨rfl, hheeds', hraised⟩, rank_after hclimbs _ _⟩,
      fun hlast => ⟨fun h => h, fun _ => ?_⟩⟩
    exact (Decidable.em _).imp_right fun hge => hreach hlast hge
  | none =>
    have hheeds' : Heeds T (f.setCurrent ⟨header.tip, step.state⟩) cause := by
      cases cause <;> exact hheeds
    obtain ⟨hfollows, _, hhoming⟩ := goes_applied hc hnew hheeds'
    simp only [hfloor]
    refine ⟨_, header :: bs, hfollows, ?_, fun hlast => ⟨fun h => hhoming hlast h.1 h.2, fun _ => ?_⟩⟩
    · exact goes_applied_lt hc hnew hheeds' fun tip floor => Nat.le_of_lt (rank_after hclimbs tip floor)
    · exact (Decidable.em _).imp_right fun hge => hhoming hlast (hreach hlast hge).1 (hreach hlast hge).2

/-- Every reply brings a call closer to its end. -/
theorem proceeds (hc : Charted T w.chain) (hf : Follows side T w.chain.known (S.held side w) f v bs)
    (hsize : w.buffer.size ≤ Buffered.maxSize) (hk : Knows side T w.chain (S.held side w) f v bs call) :
    Proceeds S side T w f bs call := by
  cases call with
  | identify attempt => exact hk.elim
  | begin network => exact hk.elim
  | resume network initial => exact hk.elim
  | create network initial => exact hk.elim
  | target attempt => exact proceeds_target hc hf attempt
  | compare attempt target tip => exact proceeds_compare hc hf hk
  | fetchStale attempt target tip => exact proceeds_fetchStale hc hf hk
  | next attempt target tip => exact proceeds_next hc hf hk
  | fetchNext attempt target tip requested => exact proceeds_fetchNext hc hf hk
  | lookup cause view block => exact proceeds_lookup hc hf hk
  | revert cause view block record => exact proceeds_revert hc hf hsize hk
  | retreat cause stored => exact proceeds_retreat hc hf hk
  | apply cause view header block => exact proceeds_apply hc hf hsize hk
  | advance cause header step => exact proceeds_advance hc hf hk
  | prune cause tip floor => exact proceeds_prune hc hf hk

/-- A block that is announced was mined, and one that is announced as detached is not canonical. -/
def Reported (c : SimulatedChain) (kind : EventKind) (b : Header) : Prop :=
  b ∈ c.known ∧ b ≠ SimulatedChain.genesis ∧ (kind = .detach → b ∉ c.branch)

theorem started_eq (hf : Follows side T known held f v bs) : f.started = (f, .asks (.target 1)) := by
  rw [Follower.started, hf.view]
  rfl

/-- A call begins with no more left of it than of a walk. -/
theorem rank_target_le (T : Terms) {height : Nat} (hheight : height ≤ T.summit) (view : View) (block : Json)
    (header : Header) : rank T height (.lookup .notified view block) ≤ rank T height (.target 1) ∧
      rank T height (.apply .notified view header block) ≤ rank T height (.target 1) := by
  change 0 + 5 * height + 3 ≤ spare T 1 + 12 * (T.summit + 1) ∧
    0 + 2 ≤ spare T 1 + 12 * (T.summit + 1)
  omega

theorem Follows.not_predates (hf : Follows side T known held f v bs) {h : Header} (hh : h.height.toNat ≠ 0) :
    v.predates h = false := by
  have hinitial : v.initial.height = 0 := by rw [hf.initial]; rfl
  have hnot : ¬h.height ≤ v.initial.height := by
    rw [hinitial, UInt64.le_iff_toNat_le]
    exact fun hle => hh (Nat.le_zero.mp hle)
  rw [View.predates, decide_eq_false hnot, Bool.and_false]

theorem Reported.height (hc : Charted T c) {kind : EventKind} (h : Reported c kind b) :
    b.height.toNat ≠ 0 := by
  obtain ⟨below, hbelow⟩ := (hc.grown.rooted b h.1).resolve_left h.2.1
  rw [hbelow.2.2.1]
  exact Nat.succ_ne_zero _

/-- What a notification of a block may lead to: a call that knows what it needs. In step at the end of the
chain nothing leads away from there, and an announcement of the last block leads there. -/
def Begins (side : Side) (T : Terms) (c : SimulatedChain) (held : Holdings) (f : Follower) (v : View)
    (bs : List Header) (kind : EventKind) (b : Header) (next : Follower.Next) : Prop :=
  Goes (fun call => Knows side T c held f v bs call ∧ rank T bs.length call ≤ rank T bs.length (.target 1))
    True next ∧
  (c.branch.length = T.summit →
    Settled c f bs ∨ (bs.length < T.summit ∧ kind = .attach ∧ b = top c.branch) →
      Goes (Homing c bs) (Settled c f bs) next)

theorem begins_target (kind : EventKind) (b : Header) :
    Begins side T c held f v bs kind b (.asks (.target 1)) :=
  ⟨⟨trivial, Nat.le_refl _⟩, fun _ _ => trivial⟩

theorem begins_attached (hc : Charted T c) (hf : Follows side T c.known held f v bs) {n : Notification}
    (hheader : payloadHeader n.payload = .ok b) (hreported : Reported c .attach b) :
    ∃ next, f.attached n = (f, next) ∧ Begins side T c held f v bs .attach b next := by
  have hmost := hc.most bs hf.rooted
  simp only [Follower.attached, hheader, hf.view, hf.not_predates (hreported.height hc),
    Bool.false_eq_true, if_false]
  split
  · next hhash =>
    refine ⟨_, rfl, trivial, fun hlast hcase => ?_⟩
    rcases hcase with hsettled | ⟨hlt, _, rfl⟩
    · exact hsettled
    · have heq := hf.eq_of_hash hc hc.grown.branch hhash
      rw [← heq, hlast] at hlt
      exact absurd hlt (Nat.lt_irrefl _)
  · split
    · next hdirect =>
      have hrooted := hf.rooted_cons hc hreported.1 hreported.2.1 hdirect.2.2
      refine ⟨_, rfl, ⟨⟨rfl, hdirect.1, trivial, hrooted⟩, (rank_target_le T hmost v n.payload b).2⟩,
        fun hlast hcase => ?_⟩
      rcases hcase with ⟨_, rfl⟩ | ⟨_, _, rfl⟩
      · have hlength := hc.most _ hrooted
        rw [List.length_cons, hlast] at hlength
        exact absurd hlength (Nat.not_succ_le_self _)
      · have heq := SimulatedChain.Rooted.unique hc.distinct hc.grown.genesis hrooted hc.grown.branch rfl
        exact ⟨heq ▸ List.suffix_rfl, .inl heq⟩
    · exact ⟨_, rfl, begins_target _ b⟩

theorem begins_detached (hc : Charted T c) (hf : Follows side T c.known held f v bs) {n : Notification}
    (hheader : payloadHeader n.payload = .ok b) (hreported : Reported c .detach b) :
    ∃ next, f.detached n = (f, next) ∧ Begins side T c held f v bs .detach b next := by
  have hmost := hc.most bs hf.rooted
  simp only [Follower.detached, hheader, hf.view, hf.not_predates (hreported.height hc),
    Bool.false_eq_true, if_false]
  split
  · next hdirect =>
    have htop : b = top bs := SimulatedChain.eq_of_hash hc.distinct hreported.1
      (hf.rooted.top_mem hc.grown.genesis) (hdirect.2.2.trans (congrArg Tip.hash hf.tip))
    have hstale : ¬bs <:+ c.branch := by
      intro hsuffix
      cases bs with
      | nil => exact hreported.2.1 htop
      | cons b' below => exact hreported.2.2 rfl (hsuffix.subset (htop ▸ List.mem_cons_self))
    refine ⟨_, rfl, ⟨⟨rfl, hdirect.1, hstale⟩, (rank_target_le T hmost v n.payload b).1⟩, fun _ hcase => ?_⟩
    rcases hcase with ⟨_, rfl⟩ | ⟨_, hkind, _⟩
    · exact absurd List.suffix_rfl hstale
    · cases hkind
  · exact ⟨_, rfl, begins_target _ b⟩

theorem begins_notified (hc : Charted T c) (hf : Follows side T c.known held f v bs) {n : Notification}
    (hheader : payloadHeader n.payload = .ok b) (hreported : Reported c n.kind b) :
    ∃ next, f.notified n = (f, next) ∧ Begins side T c held f v bs n.kind b next := by
  unfold Follower.notified
  cases hkind : n.kind with
  | attach => exact begins_attached hc hf hheader (hkind ▸ hreported)
  | detach => exact begins_detached hc hf hheader (hkind ▸ hreported)

/-- Blocks stay known, and what has left the chain does not come back. -/
structure Onward (c c' : SimulatedChain) : Prop where
  known : c.known ⊆ c'.known
  branch : ∀ bs, Rooted c.known bs → bs <:+ c'.branch → bs <:+ c.branch
  canonical : ∀ b ∈ c.known, b ∈ c'.branch → b ∈ c.branch

theorem onward_attach {moves : List (String × Json)} (hdistinct : (c.attach moves).2.Distinct) :
    Onward c (c.attach moves).2 where
  known := List.subset_cons_self _ _
  branch bs hbs hsuffix := by
    rcases List.suffix_cons_iff.mp hsuffix with rfl | hsuffix
    · have hnew := (List.nodup_cons.mp hdistinct).1
      exact absurd (List.mem_map_of_mem hbs.1) hnew
    · exact hsuffix
  canonical b hb hmem := by
    rcases List.mem_cons.mp hmem with rfl | hmem
    · have hnew := (List.nodup_cons.mp hdistinct).1
      exact absurd (List.mem_map_of_mem hb) hnew
    · exact hmem

theorem onward_detach {c' : SimulatedChain} {b : Header} (h : c.detach = .ok (b, c')) : Onward c c' where
  known := by rw [SimulatedChain.known_detach h]; exact List.Subset.refl _
  branch bs _ hsuffix := by
    rw [(SimulatedChain.detach_eq_ok h).1]
    exact hsuffix.trans (List.suffix_cons _ _)
  canonical b' _ hmem := by
    rw [(SimulatedChain.detach_eq_ok h).1]
    exact List.mem_cons_of_mem _ hmem

theorem Reported.mono {c' : SimulatedChain} (h : Onward c c') {kind : EventKind} (hb : Reported c kind b) :
    Reported c' kind b :=
  ⟨h.known hb.1, hb.2.1, fun hkind hmem => hb.2.2 hkind (h.canonical b hb.1 hmem)⟩

theorem Knows.mono {c' : SimulatedChain} (h : Onward c c') (hbs : Rooted c.known bs)
    (hk : Knows side T c held f v bs call) : Knows side T c' held f v bs call := by
  have hstale : ¬bs <:+ c.branch → ¬bs <:+ c'.branch := fun hnot hsuffix => hnot (h.branch bs hbs hsuffix)
  cases call with
  | identify attempt => exact hk
  | begin network => exact hk
  | resume network initial => exact hk
  | create network initial => exact hk
  | target attempt => exact hk
  | compare attempt target tip => exact hk
  | fetchStale attempt target tip => exact ⟨hk.1, hk.2.1, hstale hk.2.2⟩
  | next attempt target tip => exact hk
  | fetchNext attempt target tip requested => exact hk
  | lookup cause view block => exact ⟨hk.1, hk.2.1, hstale hk.2.2⟩
  | revert cause view block record => exact ⟨hk.1, hk.2.1, hstale hk.2.2.1, hk.2.2.2⟩
  | retreat cause stored => exact ⟨hk.1, hstale hk.2.1, hk.2.2⟩
  | apply cause view header block => exact ⟨hk.1, hk.2.1, hk.2.2.1, hk.2.2.2.mono h.known⟩
  | advance cause header step => exact ⟨hk.1, hk.2.1, hk.2.2.1.mono h.known, hk.2.2.2⟩
  | prune cause tip floor => exact ⟨hk.1, hk.2.1, hk.2.2.mono h.known⟩

end Simulation

end ChainFollower
