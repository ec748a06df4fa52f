import ChainFollower.Proofs.Sync.Setting

namespace ChainFollower

namespace Setting

variable {R : Rules} {L : Ledger R.initial.tip} {σ : Type} {S : Setting R L σ} {f g : Follower}
  {s t u : σ} {v w : View} {bs : List Block} {b : Block}

/-- The newest block of a walking follower is fetched and undone. -/
theorem leads_stale (attempt : Nat) (target : Tip) {below : List Block}
    (hr : S.Ready f s v (b :: below)) (hj : R.Journaled L (S.held s) [b]) :
    ∃ before g t, S.host.Leads (f, .asks (.fetchStale attempt target v.current.tip)) s
        (g, .asks (.compare attempt target before.tip)) t ∧
      S.Ready g t { v with current := before } below ∧
      (S.held t).record = (S.held s).record := by
  obtain ⟨t₁, hfetch, hk⟩ := leads_fetchStale attempt target hr (hr.keeps.known b (by simp))
    hr.keeps.stands.tip_eq
  have hr₁ := hr.congr (now_le_of_leads hfetch) hk
  obtain ⟨before, t, hundo, hr', hrec⟩ := leads_undo (.walk attempt target) hr₁ (hk ▸ hj)
  exact ⟨before, _, t, hfetch.trans hundo, hr', by rw [hrec, hk]⟩

/-- A walk undoes blocks as long as they are not canonical, and the records of an upper part of the
branch let it come down to the lower one. -/
theorem leads_fork_append (attempt : Nat) (target : Tip) {upper lower : List Block}
    (hr : S.Ready f s v (upper ++ lower)) (hj : R.Journaled L (S.held s) upper) :
    ∃ g t w dropped kept, upper = dropped ++ kept ∧
      S.host.Leads (f, .asks (.compare attempt target v.current.tip)) s
        (g.compared attempt target w.current.tip
          ((S.chain (S.now t)).hashAt w.current.tip.height)) t ∧
      S.Ready g t w (kept ++ lower) ∧ (S.held t).record = (S.held s).record ∧
      (kept = [] ∨ L.top (kept ++ lower) ∈ (S.chain (S.now t)).blocks) := by
  induction upper generalizing f s v with
  | nil =>
    obtain ⟨t, hl, hk⟩ := S.leads_compare f attempt target v.current.tip s
    exact ⟨f, t, v, [], [], rfl, hl, hr.congr (now_le_of_leads hl) hk, by rw [hk], .inl rfl⟩
  | cons b below ih =>
    obtain ⟨t₁, hl, hk⟩ := S.leads_compare f attempt target v.current.tip s
    have hr₁ := hr.congr (now_le_of_leads hl) hk
    by_cases hc : L.top (b :: below ++ lower) ∈ (S.chain (S.now t₁)).blocks
    · exact ⟨f, t₁, v, [], b :: below, rfl, hl, hr₁, by rw [hk], .inr hc⟩
    · -- One block down, where the same question is asked again.
      have hne := mt hr.keeps.stands.hashAt_eq_some_iff.mp hc
      unfold Follower.compared at hl
      rw [if_neg hne] at hl
      have hjb : R.Journaled L (S.held t₁) [b] := hj.mono (by rw [hk]) (by simp)
      obtain ⟨before, g, t₂, hundo, hr₂, hrec⟩ :=
        leads_stale attempt target (hr₁.alike Follower.alike_setState) hjb
      have hj₂ : R.Journaled L (S.held t₂) below := hj.mono (by rw [hrec, hk]) (by simp_all)
      obtain ⟨g', t, w, dropped, kept, rfl, hrest, hr', hrec', hend⟩ := ih hr₂ hj₂
      exact ⟨g', t, w, b :: dropped, kept, rfl, (hl.trans hundo).trans hrest, hr',
        by rw [hrec', hrec, hk], hend⟩

/-- With all records, a walk comes at most down to where the game starts. -/
theorem leads_fork (attempt : Nat) (target : Tip) (hr : S.Ready f s v bs)
    (hj : R.Journaled L (S.held s) bs) :
    ∃ g t w dropped kept, bs = dropped ++ kept ∧
      S.host.Leads (f, .asks (.compare attempt target v.current.tip)) s
        (g.compared attempt target w.current.tip
          ((S.chain (S.now t)).hashAt w.current.tip.height)) t ∧
      S.Ready g t w kept ∧ (S.held t).record = (S.held s).record ∧
      (kept = [] ∨ L.top kept ∈ (S.chain (S.now t)).blocks) := by
  have hr₀ : S.Ready f s v (bs ++ []) := (List.append_nil bs).symm ▸ hr
  obtain ⟨g, t, w, dropped, kept, heq, hl, hr', hrec, hend⟩ := leads_fork_append attempt target hr₀ hj
  rw [List.append_nil] at hr' hend
  exact ⟨g, t, w, dropped, kept, heq, hl, hr', hrec, hend⟩

/-- The block was canonical at some time from the `n`th change on until after the `k`th one. -/
def Seen (S : Setting R L σ) (n k : Nat) (b : Block) : Prop :=
  ∃ m, n ≤ m ∧ m ≤ k ∧ b ∈ (S.chain m).blocks

/-- The chain was another one at some time from the `n`th change on until after the `k`th one. -/
def Moved (S : Setting R L σ) (n k : Nat) : Prop :=
  ∃ m, n ≤ m ∧ m ≤ k ∧ S.chain m ≠ S.chain n

/-- The chain ended at this tip at some time from the `n`th change on until after the `k`th one. -/
def Ended (S : Setting R L σ) (n k : Nat) (target : Tip) : Prop :=
  ∃ m, n ≤ m ∧ m ≤ k ∧ target = (S.chain m).tip.tip

theorem Seen.mono {n k l : Nat} (h : S.Seen n k b) (hle : k ≤ l) : S.Seen n l b := by
  obtain ⟨m, hn, hk, hb⟩ := h
  exact ⟨m, hn, Nat.le_trans hk hle, hb⟩

theorem Seen.known {n k : Nat} (h : S.Seen n k b) : S.Known k b := by
  obtain ⟨m, _, hk, hb⟩ := h
  exact ⟨m, hk, hb⟩

theorem Ended.mono {n k l : Nat} {target : Tip} (h : S.Ended n k target) (hle : k ≤ l) :
    S.Ended n l target := by
  obtain ⟨m, hn, hk, heq⟩ := h
  exact ⟨m, hn, Nat.le_trans hk hle, heq⟩

theorem Moved.mono {n k l : Nat} (h : S.Moved n k) (hle : k ≤ l) : S.Moved n l := by
  obtain ⟨m, hn, hk, hne⟩ := h
  exact ⟨m, hn, Nat.le_trans hk hle, hne⟩

theorem chain_eq_of_not_moved {n k m : Nat} (h : ¬S.Moved n k) (hn : n ≤ m) (hk : m ≤ k) :
    S.chain m = S.chain n := by
  by_cases heq : S.chain m = S.chain n
  · exact heq
  · exact absurd ⟨m, hn, hk, heq⟩ h

/-- While the chain stays, a block that was canonical has the next one of the chain above it. -/
theorem exists_next_of_not_moved {n k : Nat} {target : Tip} {st : StoredState}
    (hm : ¬S.Moved n k) (hst : R.Stands L bs st) (hseen : S.Seen n k (L.top bs))
    (htarget : S.Ended n k target)
    (hlt : st.tip.height < target.height) (hnk : n ≤ k) :
    ∃ b ∈ (S.chain k).blocks, b.header.parent = st.tip.hash ∧
      b.header.height = st.tip.height + 1 := by
  obtain ⟨i, hni, hik, htop⟩ := hseen
  obtain ⟨j, hnj, hjk, rfl⟩ := htarget
  rw [chain_eq_of_not_moved hm hni hik] at htop
  rw [chain_eq_of_not_moved hm hnj hjk] at hlt
  rw [chain_eq_of_not_moved hm hnk (Nat.le_refl k)]
  exact hst.exists_next htop hlt

/-- What a walking follower asks for above its tip is a block of the moment that lies on the tip, or the
chain has moved. -/
theorem leads_above {n : Nat} (attempt : Nat) {target : Tip} (hr : S.Ready f s v bs)
    (hn : n ≤ S.now s) (hseen : S.Seen n (S.now s) (L.top bs))
    (htarget : S.Ended n (S.now s) target)
    (hlt : v.current.tip.height < target.height) :
    ∃ t, S.held t = S.held s ∧
      ((∃ b, S.Seen n (S.now t) b ∧ b.header.parent = v.current.tip.hash ∧
          S.host.Leads (f, .asks (.next attempt target v.current.tip)) s
            (f, .asks (.apply (.walk attempt target) v b.header b.payload)) t) ∨
        (∃ e, S.host.Leads (f, .asks (.next attempt target v.current.tip)) s
            (f.walkFailed attempt (.chain e)) t) ∧ S.Moved n (S.now t)) := by
  obtain ⟨t₁, hnext, hk₁⟩ := S.leads_next f attempt target v.current.tip s
  have hle₁ := now_le_of_leads hnext
  have hn₁ : n ≤ S.now t₁ := Nat.le_trans hn hle₁
  have hstays : ¬S.Moved n (S.now t₁) → ∃ b ∈ (S.chain (S.now t₁)).blocks,
      b.header.parent = v.current.tip.hash ∧ b.header.height = v.current.tip.height + 1 := by
    intro hm
    exact exists_next_of_not_moved hm hr.keeps.stands (hseen.mono hle₁) (htarget.mono hle₁) hlt hn₁
  cases hhash : (S.chain (S.now t₁)).hashAt (v.current.tip.height + 1) with
  | none =>
    rw [hhash] at hnext
    refine ⟨t₁, hk₁, .inr ⟨⟨.noBlockAt (v.current.tip.height + 1) target, hnext⟩,
      Classical.byContradiction fun hm => ?_⟩⟩
    obtain ⟨b, hb, _, hheight⟩ := hstays hm
    have hsome := Ledger.Chain.hashAt_eq_some_iff.mpr ⟨b, hb, hheight, rfl⟩
    rw [hhash] at hsome
    cases hsome
  | some hash =>
    rw [hhash] at hnext
    obtain ⟨b, hb, hheight, rfl⟩ := Ledger.Chain.hashAt_eq_some_iff.mp hhash
    have htip : (⟨v.current.tip.height + 1, b.header.hash⟩ : Tip) = b.tip := by
      rw [← hheight]
      rfl
    have hasks : S.host.Leads (f, .asks (.next attempt target v.current.tip)) s
        (f, .asks (.fetchNext attempt target v.current.tip b.tip)) t₁ := htip ▸ hnext
    have hr₁ := hr.congr hle₁ hk₁
    obtain ⟨t, hfetch, hk⟩ := leads_fetchNext attempt target hr₁ ⟨S.now t₁, Nat.le_refl _, hb⟩
    have hl := hasks.trans hfetch
    have hle := now_le_of_leads hfetch
    refine ⟨t, by rw [hk, hk₁], ?_⟩
    by_cases hparent : b.header.parent = v.current.tip.hash
    · rw [if_pos hparent] at hl
      exact .inl ⟨b, ⟨S.now t₁, hn₁, hle, hb⟩, hparent, hl⟩
    · rw [if_neg hparent] at hl
      refine .inr ⟨⟨_, hl⟩, Classical.byContradiction fun hm => ?_⟩
      obtain ⟨c, hc, hcp, hch⟩ := hstays fun hm₁ => hm (hm₁.mono hle)
      have heq : b = c := (S.chain _).linked.eq_of_height hb hc (hheight.trans hch.symm)
      exact hparent (heq ▸ hcp)

/-- What comes of a walk upwards from `bs` that has its target since the `n`th change: it ends at the
height of the target, on blocks that were canonical when they were fetched, or it fails on a chain that
has moved. -/
structure Climbed (S : Setting R L σ) (n attempt : Nat) (target : Tip) (s : σ) (pruning : Option UInt64)
    (bs : List Block) (q : Follower × Follower.Next) (t : σ) (w : View) (new : List Block) :
    Prop where
  ready : S.Ready q.1 t w (new ++ bs)
  seen : ∀ b ∈ new, S.Seen n (S.now t) b
  journaled : pruning = none → R.Journaled L (S.held s) bs → R.Journaled L (S.held t) (new ++ bs)
  outcome : (q.2 = .returned (.ok ()) ∧ q.1.state = .synced ∧ target.height ≤ w.current.tip.height ∧
      S.Seen n (S.now t) (L.top (new ++ bs))) ∨
    (∃ h e, q = Follower.walkFailed h attempt (.chain e)) ∧ S.Moved n (S.now t)

theorem leads_climb {n : Nat} (attempt : Nat) {target : Tip} (hr : S.Ready f s v bs)
    (hn : n ≤ S.now s) (hseen : S.Seen n (S.now s) (L.top bs))
    (htarget : S.Ended n (S.now s) target) :
    ∃ q t w new, S.host.Leads (f.climb attempt target v.current.tip) s q t ∧
      S.Climbed n attempt target s f.pruning bs q t w new := by
  generalize hd : target.height.toNat - v.current.tip.height.toNat = d
  induction d using Nat.strongRecOn generalizing f s v bs with
  | ind d ih =>
    by_cases hle : target.height ≤ v.current.tip.height
    · have hend : f.climb attempt target v.current.tip =
          (f.setState .synced, .returned (.ok ())) := by
        simp [Follower.climb, hle]
      rw [hend]
      exact ⟨_, s, v, [], .refl _ _, hr.alike Follower.alike_setState, by simp, fun _ hj => hj,
        .inl ⟨rfl, rfl, hle, hseen⟩⟩
    · have hasks : f.climb attempt target v.current.tip =
          (f, .asks (.next attempt target v.current.tip)) := by
        simp [Follower.climb, hle]
      rw [hasks]
      obtain ⟨t₁, hk, ⟨b, hb, hparent, hl⟩ | ⟨⟨e, hl⟩, hm⟩⟩ :=
        leads_above attempt hr hn hseen htarget (UInt64.not_le.mp hle)
      · -- The new block is canonical now, as the old one was before, and closer to the target.
        have hr₁ := hr.congr (now_le_of_leads hl) hk
        obtain ⟨after, t₂, htip, happly, hr₂, hj₂⟩ :=
          leads_apply (.walk attempt target) hr₁ hb.known hparent
        have hl₂ := hl.trans happly
        have hle₂ := now_le_of_leads hl₂
        have hheight := hb.known.holds.height hr.keeps.stands.branch.holds_top
          (hparent.trans hr.keeps.stands.top_hash.symm)
        rw [hr.keeps.stands.top_height] at hheight
        have hlt := UInt64.lt_iff_toNat_lt.mp (UInt64.not_le.mp hle)
        have hdecr : target.height.toNat - after.tip.height.toNat < d := by
          have hafter : after.tip.height.toNat = b.header.height.toNat := by rw [htip]; rfl
          omega
        obtain ⟨q, t, w, new, hrest, hc⟩ :=
          ih _ hdecr hr₂ (Nat.le_trans hn hle₂) (hb.mono (now_le_of_leads happly))
            (htarget.mono hle₂) rfl
        refine ⟨q, t, w, new ++ [b], hl₂.trans (htip ▸ hrest), ?_⟩
        refine ⟨List.append_assoc .. ▸ hc.ready, ?_, ?_, List.append_assoc .. ▸ hc.outcome⟩
        · intro c hmem
          rcases List.mem_append.mp hmem with hmem | hmem
          · exact hc.seen c hmem
          · rw [List.mem_singleton.mp hmem]
            exact hb.mono (now_le_of_leads (happly.trans (htip ▸ hrest)))
        · intro hp hj
          rw [List.append_assoc]
          exact hc.journaled hp (hj₂ hp (hk ▸ hj))
      · have ha := (f.walkFailed_spec attempt (.chain e)).1
        exact ⟨_, t₁, v, [], hl, (hr.congr (now_le_of_leads hl) hk).alike ha, by simp,
          fun _ hj => hk ▸ hj, .inr ⟨⟨f, e, rfl⟩, hm⟩⟩

/-- The end of this branch is canonical from here on. -/
def Stays (S : Setting R L σ) (s : σ) (lower : List Block) : Prop :=
  ∀ t, S.host.Later s t → L.top lower ∈ (S.chain (S.now t)).blocks

theorem RootStays.stays (h : S.RootStays) (s : σ) : S.Stays s [] := fun t _ => h (S.now t)

theorem Rests.stays {lower : List Block} (h : S.Rests s)
    (htop : L.top lower ∈ (S.chain (S.now s)).blocks) : S.Stays s lower := by
  intro t hl
  rw [h t hl]
  exact htop

/-- A chain with the first block of the game never falls short of it. -/
theorem RootStays.height_le (h : S.RootStays) (n : Nat) :
    R.initial.tip.height ≤ (S.chain n).tip.header.height := by
  have hnil : L.Branch [] := trivial
  exact Ledger.Chain.root_le_tip hnil (h n)

/-- With another tip than the local one, a chain that has come so far is compared with the local
branch. -/
theorem targetKnown_eq (hr : S.Ready f s v bs) (attempt n : Nat)
    (hle : R.initial.tip.height ≤ (S.chain n).tip.header.height)
    (hne : (S.chain n).tip.tip ≠ v.current.tip) :
    f.targetKnown attempt (S.chain n).tip.tip =
      (f, .asks (.compare attempt (S.chain n).tip.tip v.current.tip)) := by
  have hshort : ¬(v.current.tip = v.initial ∧ (S.chain n).tip.tip.height < v.initial.height) := by
    rw [hr.initial]
    exact fun hc => UInt64.not_le.mpr hc.2 hle
  unfold Follower.targetKnown
  rw [hr.view]
  simp only
  rw [if_neg hne, if_neg hshort]

/-- At the fork, the walk turns upwards. -/
theorem leads_compared {n : Nat} (attempt : Nat) {target : Tip} (hr : S.Ready f s v bs)
    (hn : n ≤ S.now s) (hmem : L.top bs ∈ (S.chain (S.now s)).blocks)
    (htarget : S.Ended n (S.now s) target) :
    ∃ q t w new, S.host.Leads (f.compared attempt target v.current.tip
        ((S.chain (S.now s)).hashAt v.current.tip.height)) s q t ∧
      S.Climbed n attempt target s f.pruning bs q t w new := by
  have hcanonical := hr.keeps.stands.hashAt_eq_some_iff.mpr hmem
  have hseen : S.Seen n (S.now s) (L.top bs) := ⟨_, hn, Nat.le_refl _, hmem⟩
  unfold Follower.compared
  rw [if_pos hcanonical]
  unfold Follower.forkReached
  split
  · exact leads_climb attempt (hr.alike Follower.alike_setState) hn hseen htarget
  · exact leads_climb attempt hr hn hseen htarget

/-- A walk keeps the lower part of the local branch, which stays canonical, and goes up from there or
from further up. -/
theorem leads_walk_append {upper lower : List Block} (hstays : S.Stays s lower) (attempt : Nat)
    (hr : S.Ready f s v (upper ++ lower)) (hj : R.Journaled L (S.held s) upper) :
    ∃ q t w dropped kept new target, upper = dropped ++ kept ∧
      S.host.Leads (f, .asks (.target attempt)) s q t ∧
      (S.host.answer (.chain .info) s).1 = .ok ⟨R.network, target⟩ ∧
      S.Climbed (S.now s) attempt target s f.pruning (kept ++ lower) q t w new := by
  obtain ⟨t₁, hl₁, hk₁, hinfo⟩ := S.leads_target f attempt s
  have hle₁ := now_le_of_leads hl₁
  have hr₁ := hr.congr hle₁ hk₁
  by_cases heq : (S.chain (S.now t₁)).tip.tip = v.current.tip
  · have hend : f.targetKnown attempt (S.chain (S.now t₁)).tip.tip =
        (f.setState .synced, .returned (.ok ())) := by
      simp [Follower.targetKnown, hr.view, heq]
    rw [hend] at hl₁
    have htop : L.top (upper ++ lower) = (S.chain (S.now t₁)).tip :=
      hr.keeps.stands.top_eq (S.chain _).linked.1 (congrArg Tip.hash heq)
    refine ⟨_, t₁, v, [], upper, [], _, rfl, hl₁, hinfo, hr₁.alike Follower.alike_setState, by simp,
      fun _ hj => hk₁ ▸ hj, .inl ⟨rfl, rfl, ?_, ?_⟩⟩
    · rw [heq]
      exact UInt64.le_refl _
    · exact ⟨_, hle₁, Nat.le_refl _, by simp [htop, Ledger.Chain.blocks]⟩
  · have hbranch : L.Branch lower := hr.keeps.stands.branch.of_append
    have hfar := Ledger.Chain.root_le_tip hbranch (hstays t₁ hl₁.later)
    rw [targetKnown_eq hr attempt _ hfar heq] at hl₁
    obtain ⟨g, t₂, v₂, dropped, kept, rfl, hl₂, hr₂, hrec, hend⟩ :=
      leads_fork_append attempt (S.chain (S.now t₁)).tip.tip hr₁ (hk₁ ▸ hj)
    have hle₂ := now_le_of_leads hl₂
    have hmem : L.top (kept ++ lower) ∈ (S.chain (S.now t₂)).blocks := by
      rcases hend with rfl | hmem
      · exact hstays t₂ (hl₁.trans hl₂).later
      · exact hmem
    obtain ⟨q, t, w, new, hl, hc⟩ := leads_compared attempt hr₂ (Nat.le_trans hle₁ hle₂) hmem
      ⟨_, hle₁, hle₂, rfl⟩
    have hpruning : g.pruning = f.pruning :=
      (Follower.yields_compared ..).kin.pruning.symm.trans hl₂.kin.pruning
    have hrec₂ : (S.held t₂).record = (S.held s).record := by rw [hrec, hk₁]
    refine ⟨q, t, w, dropped, kept, new, _, rfl, (hl₁.trans hl₂).trans hl, hinfo, hc.ready, hc.seen,
      ?_, hc.outcome⟩
    exact fun hp hj => hc.journaled (hpruning.trans hp) (hj.mono hrec₂ (by simp))

/-- With all records, a walk keeps a part of the local branch and goes up from there. -/
theorem leads_walk (hroot : S.RootStays) (attempt : Nat) (hr : S.Ready f s v bs)
    (hj : R.Journaled L (S.held s) bs) :
    ∃ q t w dropped kept new target, bs = dropped ++ kept ∧
      S.host.Leads (f, .asks (.target attempt)) s q t ∧
      (S.host.answer (.chain .info) s).1 = .ok ⟨R.network, target⟩ ∧
      S.Climbed (S.now s) attempt target s f.pruning kept q t w new := by
  have hr₀ : S.Ready f s v (bs ++ []) := (List.append_nil bs).symm ▸ hr
  obtain ⟨q, t, w, dropped, kept, new, target, heq, hl, hinfo, hc⟩ :=
    leads_walk_append (hroot.stays s) attempt hr₀ hj
  rw [List.append_nil] at hc
  exact ⟨q, t, w, dropped, kept, new, target, heq, hl, hinfo, hc⟩

/-- The block was canonical with all blocks below it, down to where the game starts. -/
theorem RootStays.branch_mem (h : S.RootStays) {n k : Nat} (hb : L.Branch bs)
    (hseen : S.Seen n k (L.top bs)) :
    ∃ m, n ≤ m ∧ m ≤ k ∧ ∀ b ∈ bs ++ [L.first], b ∈ (S.chain m).blocks := by
  obtain ⟨m, hn, hk, htop⟩ := hseen
  refine ⟨m, hn, hk, ?_⟩
  intro b hmem
  rcases List.mem_append.mp hmem with hmem | hmem
  · exact Ledger.Chain.branch_mem (h m) hb htop b hmem
  · rw [List.mem_singleton.mp hmem]
    exact h m

/-- On a chain that does not change any more, a walk ends on its tip, as long as there are records
down to a block that is canonical. -/
theorem leads_walk_of_rests_append {upper lower : List Block} (hrests : S.Rests s)
    (htop : L.top lower ∈ (S.chain (S.now s)).blocks) (attempt : Nat)
    (hr : S.Ready f s v (upper ++ lower)) (hj : R.Journaled L (S.held s) upper) :
    ∃ g t w cs, S.host.Leads (f, .asks (.target attempt)) s (g, .returned (.ok ())) t ∧
      g.state = .synced ∧ S.Ready g t w cs ∧ w.current.tip = (S.chain (S.now s)).tip.tip ∧
      (f.pruning = none → R.Journaled L (S.held s) (upper ++ lower) →
        R.Journaled L (S.held t) cs) := by
  obtain ⟨q, t, w, dropped, kept, new, target, rfl, hl, hinfo, hc⟩ :=
    leads_walk_append (hrests.stays htop) attempt hr hj
  have hnow : S.now t = S.now s := hrests t hl.later
  rcases hc.outcome with ⟨hnext, hstate, hheight, m, hsm, hmt, htop⟩ | ⟨_, m, hsm, hmt, hne⟩
  · have hm : m = S.now s := by omega
    subst hm
    have hanswered : S.now (S.host.answer (.chain .info) s).2 = S.now s :=
      hrests _ (.answered _ (.refl _))
    have hreply := (S.replies (.chain .info) s).1
    rw [hanswered] at hreply
    have htarget : target = (S.chain (S.now s)).tip.tip :=
      congrArg ChainInfo.tip (Except.ok.inj (hinfo.symm.trans hreply))
    have hle := Ledger.Chain.height_le_tip htop
    have hge : (S.chain (S.now s)).tip.header.height.toNat ≤ w.current.tip.height.toNat := by
      rw [htarget] at hheight
      exact UInt64.le_iff_toNat_le.mp hheight
    rw [← hc.ready.keeps.stands.top_height] at hge
    have heq : L.top (new ++ (kept ++ lower)) = (S.chain (S.now s)).tip :=
      (S.chain (S.now s)).linked.eq_of_height htop (by simp)
        (UInt64.toNat_inj.mp (Nat.le_antisymm hle hge))
    refine ⟨q.1, t, w, new ++ (kept ++ lower), hnext ▸ hl, hstate, hc.ready, ?_, ?_⟩
    · rw [← hc.ready.keeps.stands.tip_eq, heq]
    · intro hp hall
      exact hc.journaled hp (hall.mono rfl (by simp_all))
  · have hm : m = S.now s := by omega
    exact absurd (congrArg S.chain hm) hne

/-- With all records, that holds wherever the chain has left the local branch. -/
theorem leads_walk_of_rests (hroot : S.RootStays) (hrests : S.Rests s) (attempt : Nat)
    (hr : S.Ready f s v bs) (hj : R.Journaled L (S.held s) bs) :
    ∃ g t w cs, S.host.Leads (f, .asks (.target attempt)) s (g, .returned (.ok ())) t ∧
      g.state = .synced ∧ S.Ready g t w cs ∧ w.current.tip = (S.chain (S.now s)).tip.tip ∧
      (f.pruning = none → R.Journaled L (S.held t) cs) := by
  have hr₀ : S.Ready f s v (bs ++ []) := (List.append_nil bs).symm ▸ hr
  obtain ⟨g, t, w, cs, hl, hstate, hr', htip, hj'⟩ :=
    leads_walk_of_rests_append hrests (hroot _) attempt hr₀ hj
  exact ⟨g, t, w, cs, hl, hstate, hr', htip, fun hp => hj' hp (by rwa [List.append_nil])⟩

end Setting

end ChainFollower
