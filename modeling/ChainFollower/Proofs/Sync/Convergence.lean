import ChainFollower.Proofs.Sync.Walk

namespace ChainFollower

namespace Setting

variable {R : Rules} {L : Ledger R.initial.tip} {σ : Type} {S : Setting R L σ} {f g : Follower}
  {s t : σ} {v : View} {bs : List Block} {b : Block} {n : Nat} {note : Notification}

/-- The notification of the change from `chain n` to `chain (n + 1)`, whatever its numbers. -/
inductive Announces (S : Setting R L σ) (n : Nat) (note : Notification) : Prop
  | attach : note.kind = .attach → (S.chain n).Attaches (S.chain (n + 1)) →
      note.payload = (S.chain (n + 1)).tip.payload → Announces S n note
  | detach : note.kind = .detach → (S.chain (n + 1)).Attaches (S.chain n) →
      note.payload = (S.chain n).tip.payload → Announces S n note

/-- The calls to a follower. A notification comes at any time after the change. -/
inductive Calls (S : Setting R L σ) (f : Follower) (s : σ) : Follower × Follower.Next → Prop
  | initialized : Calls S f s f.initialized
  | started : Calls S f s f.started
  | notified (n : Nat) (note : Notification) : n < S.now s → S.Announces n note →
      Calls S f s (f.notified note)

/-- Followers that begin with an empty store and keep all records, between their calls. The chain
changes while they wait, and they may be started anew. -/
inductive Journey (S : Setting R L σ) (rest : Duration → σ → σ) : Follower → σ → Prop
  | opens {s : σ} (retry : RetryPolicy) : S.held s = .empty →
      Journey S rest (.start R.game retry none) s
  | waits {f : Follower} {s t : σ} : Journey S rest f s → S.now s ≤ S.now t →
      S.held t = S.held s → Journey S rest f t
  | reopens {f : Follower} {s : σ} (retry : RetryPolicy) : Journey S rest f s →
      Journey S rest (.start R.game retry none) s
  | called {f g : Follower} {s t : σ} {p : Follower × Follower.Next} {result : Follower.Outcome} :
      Journey S rest f s → S.Calls f s p → S.host.Ends rest p s ((g, .returned result), t) →
      Journey S rest g t

/-- A follower in step, with all its records. -/
structure Follows (S : Setting R L σ) (f : Follower) (s : σ) (v : View) (bs : List Block) : Prop where
  ready : S.Ready f s v bs
  journaled : R.Journaled L (S.held s) bs
  synced : f.state = .synced
  pruning : f.pruning = none

/-- The store is empty or keeps a state with all its records; a follower that is initialized follows. -/
inductive Sane (S : Setting R L σ) (f : Follower) (s : σ) : Prop
  | blank : f.game = R.game → f.pruning = none → f.view = none → (S.held s).current = none →
      Sane S f s
  | asleep {st : StoredState} {bs : List Block} : f.game = R.game → f.pruning = none →
      f.view = none → S.Keeps s st bs → R.Journaled L (S.held s) bs → Sane S f s
  | awake {v : View} {bs : List Block} : S.Follows f s v bs → Sane S f s

/-- A walk on a chain that stays ends in step on its tip. -/
theorem leads_follows (hroot : S.RootStays) (hstill : S.Still) (hr : S.Ready f s v bs)
    (hj : R.Journaled L (S.held s) bs) (hp : f.pruning = none) (attempt : Nat) :
    ∃ g t w cs, S.host.Leads (f, .asks (.target attempt)) s (g, .returned (.ok ())) t ∧
      S.Follows g t w cs ∧ w.current.tip = (S.chain (S.now s)).tip.tip := by
  obtain ⟨g, t, w, cs, hl, hstate, hr', htip, hj'⟩ :=
    leads_walk_of_rests hroot (hstill.rests s) attempt hr hj
  exact ⟨g, t, w, cs, hl, ⟨hr', hj' hp, hstate, hl.kin.pruning.trans hp⟩, htip⟩

theorem RootStays.tip_ne_first_of_attaches (h : S.RootStays) {m n : Nat}
    (ha : (S.chain m).Attaches (S.chain n)) : (S.chain n).tip ≠ L.first := by
  intro heq
  have hm : L.first ∈ (S.chain n).below := by
    rw [show (S.chain n).below = (S.chain m).blocks from ha]
    exact h m
  have hlt := (S.chain n).linked.height_lt hm
  rw [heq] at hlt
  omega

/-- On its first block, a game sees the end of the chain above it. -/
theorem RootStays.not_predates (h : S.RootStays) (hr : S.Ready f s v bs)
    (hne : (S.chain n).tip ≠ L.first) : v.predates (S.chain n).tip.header = false := by
  have hlt : R.initial.tip.height < (S.chain n).tip.header.height := by
    rcases UInt64.lt_or_eq_of_le (h.height_le n) with hlt | heq
    · exact hlt
    · have hfirst : (S.chain n).tip = L.first :=
        (S.chain n).linked.eq_of_height (by simp) (h n) (heq.symm.trans (L.first_height).symm)
      exact absurd hfirst hne
  simp [View.predates, hr.initial, UInt64.not_le.mpr hlt]

/-- A block that was attached becomes the local tip, or a walk ends on the tip of the moment. -/
theorem leads_attached (hroot : S.RootStays) (hstill : S.Still) (h : S.Follows f s v bs)
    (hn : n ≤ S.now s) (hpayload : note.payload = (S.chain n).tip.payload) :
    ∃ g t w cs, S.host.Leads (f.attached note) s (g, .returned (.ok ())) t ∧ S.Follows g t w cs ∧
      (w.current.tip = (S.chain n).tip.tip ∨ w.current.tip = (S.chain (S.now s)).tip.tip) := by
  have hholds : L.Holds (S.chain n).tip := (S.chain n).linked.1
  unfold Follower.attached
  rw [hpayload, L.decodes hholds, h.ready.view]
  simp only
  by_cases hsame : (S.chain n).tip.header.hash = v.current.tip.hash
  · rw [if_pos hsame]
    refine ⟨f, s, v, bs, .refl _ _, h, .inl ?_⟩
    rw [← h.ready.keeps.stands.tip_eq, h.ready.keeps.stands.top_eq hholds hsame]
  · rw [if_neg hsame]
    by_cases hpre : v.predates (S.chain n).tip.header
    · -- The end of the chain would be the first block, and so the local tip.
      refine absurd ?_ hsame
      by_cases hfirst : (S.chain n).tip = L.first
      · simp only [View.predates, Bool.and_eq_true, decide_eq_true_eq] at hpre
        rw [hfirst, L.first_hash, hpre.1, h.ready.initial]
      · rw [hroot.not_predates h.ready hfirst] at hpre
        cases hpre
    · rw [if_neg hpre]
      by_cases hdirect : f.state = .synced ∧ note.mismatch = false ∧
          (S.chain n).tip.header.parent = v.current.tip.hash
      · rw [if_pos hdirect]
        obtain ⟨after, t, htip, hl, hr, hj⟩ :=
          leads_apply .notified h.ready ⟨n, hn, by simp [Ledger.Chain.blocks]⟩ hdirect.2.2
        exact ⟨_, t, _, _, hl, ⟨hr, hj h.pruning h.journaled, h.synced, h.pruning⟩, .inl htip⟩
      · rw [if_neg hdirect]
        obtain ⟨g, t, w, cs, hl, hf, htip⟩ :=
          leads_follows hroot hstill h.ready h.journaled h.pruning 1
        exact ⟨g, t, w, cs, hl, hf, .inr htip⟩

/-- The local tip is undone when it was detached, or a walk ends on the tip of the moment. -/
theorem leads_detached (hroot : S.RootStays) (hstill : S.Still) (h : S.Follows f s v bs) {m : Nat}
    (ha : (S.chain m).Attaches (S.chain n)) (hpayload : note.payload = (S.chain n).tip.payload) :
    ∃ g t w cs, S.host.Leads (f.detached note) s (g, .returned (.ok ())) t ∧ S.Follows g t w cs ∧
      (w.current.tip = (S.chain m).tip.tip ∨ w.current.tip = (S.chain (S.now s)).tip.tip) := by
  have hlinked := (S.chain n).linked
  have hfirst := hroot.tip_ne_first_of_attaches ha
  by_cases hdirect : f.state = .synced ∧ note.mismatch = false ∧
      (S.chain n).tip.header.hash = v.current.tip.hash
  · have htop := h.ready.keeps.stands.top_eq hlinked.1 hdirect.2.2
    cases bs with
    | nil => exact absurd htop.symm hfirst
    | cons b below =>
      obtain rfl : b = (S.chain n).tip := htop
      have hjb : R.Journaled L (S.held s) [(S.chain n).tip] := h.journaled.mono rfl (by simp)
      obtain ⟨before, t, hl, hr, hrec⟩ :=
        leads_detached_direct h.ready hjb h.synced hdirect.2.1 hpayload
      have hparent : (S.chain n).tip.header.parent = (S.chain m).tip.header.hash :=
        hlinked.2.1 _ (by rw [show (S.chain n).below = (S.chain m).blocks from ha]; rfl)
      have hbelow : L.top below = (S.chain m).tip :=
        hr.keeps.stands.branch.holds_top.eq_of_hash (S.chain m).linked.1
          (h.ready.keeps.stands.branch.2.1.symm.trans hparent)
      refine ⟨_, t, _, below, hl, ⟨hr, h.journaled.mono hrec (by simp_all), h.synced, h.pruning⟩,
        .inl ?_⟩
      rw [← hbelow, hr.keeps.stands.tip_eq]
  · obtain ⟨g, t, w, cs, hl, hf, htip⟩ :=
      leads_follows hroot hstill h.ready h.journaled h.pruning 1
    refine ⟨g, t, w, cs, ?_, hf, .inr htip⟩
    unfold Follower.detached
    rw [hpayload, L.decodes hlinked.1, h.ready.view]
    simp only
    rw [hroot.not_predates h.ready hfirst, if_neg Bool.false_ne_true, if_neg hdirect]
    exact hl

theorem leads_notified (hroot : S.RootStays) (hstill : S.Still) (h : S.Follows f s v bs)
    (hn : n < S.now s) (ha : S.Announces n note) :
    ∃ g t w cs, S.host.Leads (f.notified note) s (g, .returned (.ok ())) t ∧ S.Follows g t w cs ∧
      (w.current.tip = (S.chain (n + 1)).tip.tip ∨
        w.current.tip = (S.chain (S.now s)).tip.tip) := by
  unfold Follower.notified
  cases ha with
  | attach hkind _ hpayload =>
    rw [hkind]
    exact leads_attached hroot hstill h hn hpayload
  | detach hkind ha hpayload =>
    rw [hkind]
    exact leads_detached hroot hstill h ha hpayload

theorem leads_settled (hroot : S.RootStays) (hstill : S.Still) {st : StoredState}
    (hg : f.game = R.game) (hp : f.pruning = none) (hk : S.Keeps s st bs)
    (hj : R.Journaled L (S.held s) bs) :
    ∃ g t w cs, S.host.Leads (f.settled R.network R.initial st) s (g, .returned (.ok ())) t ∧
      S.Follows g t w cs := by
  have hr : S.Ready (f.settled R.network R.initial st).1 s ⟨R.network, R.initial.tip, st⟩ bs :=
    ⟨hg, rfl, rfl, rfl, hk⟩
  obtain ⟨g, t, w, cs, hl, hf, _⟩ := leads_follows hroot hstill hr hj hp 1
  exact ⟨g, t, w, cs, hl, hf⟩

theorem leads_initialized (hroot : S.RootStays) (hstill : S.Still) (h : S.Sane f s) :
    ∃ g t w cs, S.host.Leads f.initialized s (g, .returned (.ok ())) t ∧ S.Follows g t w cs := by
  obtain ⟨t₁, hidentify, hk₁⟩ := S.leads_identify f 1 s
  obtain ⟨t₂, hbegin, hk₂⟩ := S.leads_begin f t₁
  have hl := hidentify.trans hbegin
  have hle := now_le_of_leads hl
  rw [hk₁] at hk₂
  have resumed : ∀ st bs, f.game = R.game → f.pruning = none → S.Keeps s st bs →
      R.Journaled L (S.held s) bs → ∃ g t w cs,
        S.host.Leads f.initialized s (g, .returned (.ok ())) t ∧ S.Follows g t w cs := by
    intro st bs hg hp hk hj
    obtain ⟨t₃, hresume, hk₃⟩ := S.leads_resume_some f ((congrArg _ hk₂).trans hk.current)
    rw [hk₂] at hk₃
    have hl₃ := hl.trans hresume
    obtain ⟨g, t, w, cs, hwalk, hf⟩ :=
      leads_settled hroot hstill hg hp (hk.congr (now_le_of_leads hl₃) hk₃) (hk₃ ▸ hj)
    exact ⟨g, t, w, cs, hl₃.trans hwalk, hf⟩
  cases h with
  | blank hg hp _ hnone =>
    obtain ⟨t₃, hresume, hk₃⟩ := S.leads_resume_none f ((congrArg _ hk₂).trans hnone)
    have hk : S.Keeps t₃ ⟨R.initial.tip, R.initial.state⟩ [] :=
      ⟨by rw [hk₃]; rfl, Rules.stands_initial, by simp⟩
    obtain ⟨g, t, w, cs, hwalk, hf⟩ := leads_settled hroot hstill hg hp hk (by simp [Rules.Journaled])
    exact ⟨g, t, w, cs, (hl.trans hresume).trans hwalk, hf⟩
  | asleep hg hp _ hk hj => exact resumed _ _ hg hp hk hj
  | awake h => exact resumed _ _ h.ready.game h.pruning h.ready.keeps h.journaled

theorem Follows.congr (h : S.Follows f s v bs) (hle : S.now s ≤ S.now t)
    (hheld : S.held t = S.held s) : S.Follows f t v bs :=
  { h with ready := h.ready.congr hle hheld, journaled := hheld ▸ h.journaled }

theorem Sane.congr (h : S.Sane f s) (hle : S.now s ≤ S.now t) (hheld : S.held t = S.held s) :
    S.Sane f t := by
  cases h with
  | blank hg hp hv hnone => exact .blank hg hp hv (by rw [hheld, hnone])
  | asleep hg hp hv hk hj => exact .asleep hg hp hv (hk.congr hle hheld) (hheld ▸ hj)
  | awake h => exact .awake (h.congr hle hheld)

theorem Sane.reopens (h : S.Sane f s) (retry : RetryPolicy) :
    S.Sane (.start R.game retry none) s := by
  cases h with
  | blank _ _ _ hnone => exact .blank rfl rfl rfl hnone
  | asleep _ _ _ hk hj => exact .asleep rfl rfl rfl hk hj
  | awake h => exact .asleep rfl rfl rfl h.ready.keeps h.journaled

/-- A notification or a start means nothing to a follower that has not been initialized. -/
theorem Calls.eq_returned {p : Follower × Follower.Next} (h : S.Calls f s p) (hv : f.view = none) :
    p = (f, .returned (.ok ())) ∨ p = f.initialized := by
  cases h with
  | initialized => exact .inr rfl
  | started => exact .inl (by simp [Follower.started, hv])
  | notified n note hn ha =>
    refine .inl ?_
    unfold Follower.notified
    cases ha with
    | attach hkind _ hpayload =>
      rw [hkind]
      simp only [Follower.attached, hpayload, L.decodes (S.chain (n + 1)).linked.1, hv]
    | detach hkind _ hpayload =>
      rw [hkind]
      simp only [Follower.detached, hpayload, L.decodes (S.chain n).linked.1, hv]

/-- Every call ends well. -/
theorem Sane.leads (hroot : S.RootStays) (hstill : S.Still) (h : S.Sane f s)
    {p : Follower × Follower.Next} (hc : S.Calls f s p) :
    ∃ g t, S.host.Leads p s (g, .returned (.ok ())) t ∧ S.Sane g t := by
  have initialized : ∃ g t, S.host.Leads f.initialized s (g, .returned (.ok ())) t ∧ S.Sane g t := by
    obtain ⟨g, t, w, cs, hl, hf⟩ := leads_initialized hroot hstill h
    exact ⟨g, t, hl, .awake hf⟩
  have unseen : f.view = none →
      ∃ g t, S.host.Leads p s (g, .returned (.ok ())) t ∧ S.Sane g t := by
    intro hv
    rcases hc.eq_returned hv with rfl | rfl
    · exact ⟨f, s, .refl _ _, h⟩
    · exact initialized
  -- Only a follower with a view walks or takes a block at its word.
  cases h with
  | blank hg hp hv hnone => exact unseen hv
  | asleep hg hp hv hk hj => exact unseen hv
  | awake h =>
    cases hc with
    | initialized => exact initialized
    | started =>
      obtain ⟨g, t, w, cs, hl, hf, _⟩ :=
        leads_follows hroot hstill h.ready h.journaled h.pruning 1
      exact ⟨g, t, by simpa [Follower.started, h.ready.view] using hl, .awake hf⟩
    | notified n note hn ha =>
      obtain ⟨g, t, w, cs, hl, hf, _⟩ := leads_notified hroot hstill h hn ha
      exact ⟨g, t, hl, .awake hf⟩

theorem Journey.sane {rest : Duration → σ → σ} (hroot : S.RootStays) (hstill : S.Still)
    (h : S.Journey rest f s) : S.Sane f s := by
  induction h with
  | opens retry hempty => exact .blank rfl rfl rfl (by rw [hempty]; rfl)
  | waits _ hle hheld ih => exact ih.congr hle hheld
  | reopens retry _ ih => exact ih.reopens retry
  | called _ hc hends ih =>
    obtain ⟨g', t', hl, hsane⟩ := ih.leads hroot hstill hc
    cases hends.unique (hl.ends_returned rest)
    exact hsane

/-- Whichever notifications were lost or are late: a follower that is notified of the change to
`chain (n + 1)` is in step afterwards, and its tip is that of `chain (n + 1)` or of the chain of the
moment. -/
theorem notified_converges {rest : Duration → σ → σ} (hroot : S.RootStays) (hstill : S.Still)
    (h : S.Journey rest f s) (hv : f.view = some v) (hn : n < S.now s) (ha : S.Announces n note) :
    ∃ g t w cs, S.host.Ends rest (f.notified note) s ((g, .returned (.ok ())), t) ∧
      g.state = .synced ∧ g.view = some w ∧ (S.held t).current = some w.current ∧
      L.Branch cs ∧ (L.top cs).tip = w.current.tip ∧ R.replay cs = some w.current.state ∧
      (w.current.tip = (S.chain (n + 1)).tip.tip ∨ w.current.tip = (S.chain (S.now s)).tip.tip) ∧
      (n + 1 = S.now s → w.current.tip = (S.chain (S.now s)).tip.tip) := by
  cases h.sane hroot hstill with
  | blank _ _ hnone _ =>
    rw [hv] at hnone
    cases hnone
  | asleep _ _ hnone _ _ =>
    rw [hv] at hnone
    cases hnone
  | awake hf =>
    obtain ⟨g, t, w, cs, hl, hg, htip⟩ := leads_notified hroot hstill hf hn ha
    have hst := hg.ready.keeps.stands
    refine ⟨g, t, w, cs, hl.ends_returned rest, hg.synced, hg.ready.view, hg.ready.keeps.current,
      hst.branch, hst.tip_eq, hst.replay_eq, htip, ?_⟩
    intro hlast
    rw [hlast] at htip
    exact htip.elim id id

/-- The notification of `left` comes when the chain has been on the right branch for a while. -/
theorem notified_converges_fork :
    let S := Fork.setting Fork.history id Nat.le_refl
    let note : Notification := ⟨"g", .attach, Fork.left.payload, 7, true⟩
    let rest : Duration → MemoryStore × Nat → MemoryStore × Nat := fun _ s => s
    S.RootStays ∧ S.Still ∧ S.Announces 0 note ∧
    ∃ f s v, S.Journey rest f s ∧ f.view = some v ∧ 0 < S.now s ∧
      ∃ g t w, S.host.Ends rest (f.notified note) s ((g, .returned (.ok ())), t) ∧
        g.state = .synced ∧ g.view = some w ∧
        (w.current.tip = Fork.left.tip ∨ w.current.tip = Fork.rightEnd.tip) := by
  intro S note rest
  have hroot : S.RootStays := by
    intro n
    match n with
    | 0 => exact .head _
    | 1 => exact .tail _ (.head _)
    | 2 => exact .tail _ (.tail _ (.head _))
    | 3 => exact .tail _ (.head _)
    | 4 => exact .head _
    | 5 => exact .tail _ (.head _)
    | n + 6 => exact .tail _ (.tail _ (.head _))
  have hstill : S.Still := Fork.still_setting
  have hnote : S.Announces 0 note := .attach rfl rfl rfl
  have hopens : S.Journey rest (.start "g" .standard none) (.empty, 0) := .opens .standard rfl
  obtain ⟨f, t, v, bs, hl, hf⟩ := leads_initialized hroot hstill (hopens.sane hroot hstill)
  have hcalled : S.Journey rest f t := hopens.called .initialized (hl.ends_returned rest)
  have hwaits : S.Journey rest f (t.1, t.2 + 6) := hcalled.waits (Nat.le_add_right _ _) rfl
  have hnow : 0 < S.now (t.1, t.2 + 6) := Nat.succ_pos _
  obtain ⟨g, u, w, _, hends, hstate, hw, _, _, _, _, htip, _⟩ :=
    notified_converges hroot hstill hwaits hf.ready.view hnow hnote
  exact ⟨hroot, hstill, hnote, f, _, v, hwaits, hf.ready.view, hnow, g, u, w, hends, hstate, hw, htip⟩

end Setting

end ChainFollower
