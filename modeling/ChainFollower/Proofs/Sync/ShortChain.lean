import ChainFollower.Proofs.Sync.Delivery

namespace ChainFollower

variable {R : Rules} {L : Ledger R.initial.tip} {σ : Type}

namespace Setting

variable {S : Setting R L σ} {f g : Follower} {s t : σ} {v w : View} {bs lower : List Block} {b : Block}

theorem Ready.current_eq (h : S.Ready f s v []) : v.current = ⟨R.initial.tip, R.initial.state⟩ :=
  (h.keeps.stands.unique Rules.stands_initial
    (h.keeps.stands.tip_eq.symm.trans L.first_tip)).2

/-- On its first block, a game ignores blocks up to there. -/
theorem notified_eq_of_lower {note : Notification} (hr : S.Ready f s v []) (hb : L.Holds b)
    (hle : b.header.height ≤ R.initial.tip.height) (hnote : note.Detaches b) :
    f.notified note = (f, .returned (.ok ())) := by
  have hpre : v.predates b.header = true := by simp [View.predates, hr.current_eq, hr.initial, hle]
  unfold Follower.notified
  rw [hnote.kind]
  simp [Follower.detached, hnote.payload, L.decodes hb, hr.view, hpre]

theorem delivers_lower {note : Block → Notification} (rest : Duration → σ → σ)
    (hr : S.Ready f s v []) (hnote : ∀ b, (note b).Detaches b)
    (hlower : ∀ b ∈ lower, L.Holds b ∧ b.header.height ≤ R.initial.tip.height) :
    S.host.Delivers rest (lower.map note) f s f s := by
  induction lower with
  | nil => exact .nil f s
  | cons b below ih =>
    obtain ⟨hb, hle⟩ := hlower b (by simp)
    refine .cons ?_ (ih fun c hc => hlower c (List.mem_cons_of_mem _ hc))
    rw [notified_eq_of_lower hr hb hle (hnote b)]
    exact (Host.Leads.refl _ s).ends_returned rest

/-- Notified of each block that is detached, a follower undoes its own ones and comes to rest where the
game starts. -/
theorem delivers_detached {note : Block → Notification} (rest : Duration → σ → σ)
    (hr : S.Ready f s v bs) (hj : R.Journaled L (S.held s) bs) (hstate : f.state = .synced)
    (hnote : ∀ b, (note b).Detaches b)
    (hlower : ∀ b ∈ lower, L.Holds b ∧ b.header.height ≤ R.initial.tip.height) :
    ∃ g t w, S.host.Delivers rest ((bs ++ lower).map note) f s g t ∧ g.state = .synced ∧
      S.Ready g t w [] := by
  have hr₀ : S.Ready f s v (bs ++ []) := (List.append_nil bs).symm ▸ hr
  obtain ⟨g, t, w, hd, hg, _, hr'⟩ := delivers_undone rest hr₀ hj hstate hnote
  rw [List.map_append]
  exact ⟨g, t, w, hd.append (delivers_lower rest hr' hnote hlower), hg, hr'⟩

/-- On its first block, a game waits for a chain that has not come so far. -/
theorem leads_short_of_initial (hr : S.Ready f s v []) (hrests : S.Rests s)
    (hshort : (S.chain (S.now s)).tip.header.height < R.initial.tip.height) (attempt : Nat) :
    ∃ t, S.host.Leads (f, .asks (.target attempt)) s
        (f.setState .synced, .returned (.ok ())) t ∧
      S.Ready (f.setState .synced) t v [] := by
  obtain ⟨t, hl, hk, _⟩ := S.leads_target f attempt s
  have hnow : S.now t = S.now s := hrests t hl.later
  have hguard : v.current.tip = v.initial ∧
      (S.chain (S.now t)).tip.tip.height < v.initial.height := by
    rw [hr.current_eq, hr.initial, hnow]
    exact ⟨rfl, hshort⟩
  have hend : f.targetKnown attempt (S.chain (S.now t)).tip.tip =
      (f.setState .synced, .returned (.ok ())) := by
    simp [Follower.targetKnown, hr.view, hguard]
  rw [hend] at hl
  exact ⟨t, hl, (hr.congr (now_le_of_leads hl) hk).alike Follower.alike_setState⟩

/-- The block where the game starts is not canonical, and nothing tells how to undo it. -/
theorem leads_halted_of_first (hr : S.Ready f s v []) (hfirst : S.Known (S.now s) L.first)
    (hrecord : (S.held s).record R.initial.tip = none) {target : Tip} {attempt : Nat}
    {canonical : Option Hash} (hne : canonical ≠ some v.current.tip.hash) :
    ∃ g t, S.host.Leads (f.compared attempt target v.current.tip canonical) s
        (g, .halted (.noUndoRecord R.game R.initial.tip)) t ∧ S.Ready g t v [] := by
  have htip : L.first.tip = v.current.tip := by rw [hr.current_eq, L.first_tip]
  have hr₁ : S.Ready (f.setState .reorganizing) s v [] := hr.alike Follower.alike_setState
  unfold Follower.compared
  rw [if_neg hne]
  obtain ⟨t₁, hfetch, hk₁⟩ := leads_fetchStale attempt target hr₁ hfirst htip
  obtain ⟨t, hlookup, hk⟩ :=
    S.leads_lookup (f.setState .reorganizing) (.walk attempt target) v L.first.payload t₁
  have hl := hfetch.trans hlookup
  have hend : (f.setState .reorganizing).recordFound (.walk attempt target) v L.first.payload
      ((S.held t₁).record v.current.tip) =
        (f.setState .reorganizing, .halted (.noUndoRecord R.game R.initial.tip)) := by
    rw [hk₁, hr.current_eq, hrecord, ← hr₁.game]
    simp [Follower.recordFound, hr.current_eq]
  exact ⟨_, t, hend ▸ hl, hr₁.congr (now_le_of_leads hl) (by rw [hk, hk₁])⟩

/-- A walk from above the first block of the game undoes all blocks down to it, and does not stop. -/
theorem leads_halted_of_short (hr : S.Ready f s v bs) (hj : R.Journaled L (S.held s) bs)
    (hfirst : S.Known (S.now s) L.first) (hrecord : (S.held s).record R.initial.tip = none)
    (hrests : S.Rests s)
    (hshort : (S.chain (S.now s)).tip.header.height < R.initial.tip.height)
    (habove : v.current.tip ≠ R.initial.tip) (attempt : Nat) :
    ∃ g t w, S.host.Leads (f, .asks (.target attempt)) s
        (g, .halted (.noUndoRecord R.game R.initial.tip)) t ∧ S.Ready g t w [] := by
  -- All local blocks, and the first one of the game, are above the end of the chain.
  have hout : ∀ cs, L.Branch cs → L.top cs ∉ (S.chain (S.now s)).blocks := by
    intro cs hcs hmem
    have hle := Ledger.Chain.height_le_tip hmem
    rw [hcs.height_top] at hle
    rw [UInt64.lt_iff_toNat_lt] at hshort
    omega
  obtain ⟨t₁, hl₁, hk₁, _⟩ := S.leads_target f attempt s
  have hr₁ := hr.congr (now_le_of_leads hl₁) hk₁
  have hne : (S.chain (S.now s)).tip.tip ≠ v.current.tip := by
    intro heq
    have htop := hr.keeps.stands.top_eq (S.chain (S.now s)).linked.1 (congrArg Tip.hash heq)
    exact hout bs hr.keeps.stands.branch (by simp [htop, Ledger.Chain.blocks])
  have hasks : f.targetKnown attempt (S.chain (S.now s)).tip.tip =
      (f, .asks (.compare attempt (S.chain (S.now s)).tip.tip v.current.tip)) := by
    simp [Follower.targetKnown, hr.view, hne, hr.initial, habove]
  rw [hrests t₁ hl₁.later, hasks] at hl₁
  obtain ⟨g, t₂, w, dropped, kept, rfl, hl₂, hr₂, hrec, hend⟩ :=
    leads_fork attempt (S.chain (S.now s)).tip.tip hr₁ (hk₁ ▸ hj)
  have hl := hl₁.trans hl₂
  have hnow : S.now t₂ = S.now s := hrests t₂ hl.later
  rw [hnow] at hl hend
  -- So the walk stops undoing only where it has no record.
  have hkept : kept = [] := hend.resolve_right (hout kept hr₂.keeps.stands.branch)
  subst hkept
  have hcanonical : (S.chain (S.now s)).hashAt w.current.tip.height ≠ some w.current.tip.hash :=
    mt hr₂.keeps.stands.hashAt_eq_some_iff.mp (hout [] hr₂.keeps.stands.branch)
  obtain ⟨g', t, hhalt, hr'⟩ :=
    leads_halted_of_first hr₂ (hnow ▸ hfirst) (by rw [hrec, hk₁, hrecord]) hcanonical
  exact ⟨g', t, w, hl.trans hhalt, hr'⟩

end Setting

namespace Fork

/-- The chain loses all blocks that the game knows, its first one included. -/
def cut : Nat → ledger.Chain
  | 0 => toLeft
  | _ => toGenesis

def cutSetting : Setting rules ledger (MemoryStore × Nat) := setting cut id Nat.le_refl

def wait (_ : Duration) (s : MemoryStore × Nat) : MemoryStore × Nat := s

theorem known_cut : ∀ b ∈ [ledger.first, left], cutSetting.Known 1 b := by
  intro b hb
  refine ⟨0, Nat.zero_le 1, ?_⟩
  rcases List.mem_cons.mp hb with rfl | hb
  · exact .tail _ (.head _)
  · rw [List.mem_singleton.mp hb]
    exact .head _

end Fork

namespace Snapshot

variable {S : Setting R L σ} {f : Follower} {s : σ} {v : View} {bs : List Block}

theorem Reached.record_initial {m : Snapshot} (h : Reached R L m) :
    m.held.record R.initial.tip = none := by
  cases hr : m.held.record R.initial.tip with
  | none => rfl
  | some record => exact absurd (h.invariant.sound.record _ record hr) Rules.not_recorded_initial

/-- On a chain that ends below the first block of the game, and that still serves the blocks which were
detached, a walk comes to rest on the first block exactly if the follower was there already; from
anywhere else it undoes all blocks down to the first one and halts there. Notified of the same blocks
one by one, a follower always comes to rest on the first block. -/
theorem walk_on_short_chain_iff {result : Follower.Outcome}
    (h : Reached R L ⟨f, .returned result, S.held s⟩) (hv : f.view = some v)
    (hst : R.Stands L bs v.current) (hj : R.Journaled L (S.held s) bs)
    (hknown : ∀ b ∈ L.first :: bs, S.Known (S.now s) b) (hrests : S.Rests s)
    (hshort : (S.chain (S.now s)).tip.header.height < R.initial.tip.height)
    (attempt : Nat) (rest : Duration → σ → σ) :
    ((∃ g t w, S.host.Ends rest (f, .asks (.target attempt)) s ((g, .returned (.ok ())), t) ∧
        g.state = .synced ∧ g.view = some w ∧
        w.current = ⟨R.initial.tip, R.initial.state⟩) ↔ v.current.tip = R.initial.tip) ∧
    (v.current.tip ≠ R.initial.tip → ∃ g t w,
        S.host.Ends rest (f, .asks (.target attempt)) s
          ((g, .halted (.noUndoRecord R.game R.initial.tip)), t) ∧
        g.view = some w ∧ w.current = ⟨R.initial.tip, R.initial.state⟩ ∧
        (S.held t).current = some w.current) ∧
    (f.state = .synced → ∀ (lower : List Block) (note : Block → Notification),
      (∀ b ∈ lower, L.Holds b ∧ b.header.height ≤ R.initial.tip.height) →
      (∀ b, (note b).Detaches b) →
      ∃ g t w, S.host.Delivers rest ((bs ++ lower).map note) f s g t ∧ g.state = .synced ∧
        g.view = some w ∧ w.current = ⟨R.initial.tip, R.initial.state⟩) := by
  have hfirst : S.Known (S.now s) L.first := hknown _ (by simp)
  have hr := h.ready hv hst fun b hb => hknown b (List.mem_cons_of_mem _ hb)
  have halts : v.current.tip ≠ R.initial.tip → ∃ g t w,
      S.host.Leads (f, .asks (.target attempt)) s
        (g, .halted (.noUndoRecord R.game R.initial.tip)) t ∧ S.Ready g t w [] := fun habove =>
    Setting.leads_halted_of_short hr hj hfirst h.record_initial hrests hshort habove attempt
  refine ⟨⟨?_, ?_⟩, ?_, ?_⟩
  · rintro ⟨g, t, w, hends, _⟩
    by_cases habove : v.current.tip = R.initial.tip
    · exact habove
    · obtain ⟨g', t', w', hl, _⟩ := halts habove
      cases hends.unique (hl.ends_halted rest)
  · intro htip
    obtain rfl := hst.eq_nil_iff.mpr htip
    obtain ⟨t, hl, hr'⟩ := Setting.leads_short_of_initial hr hrests hshort attempt
    exact ⟨_, t, v, hl.ends_returned rest, rfl, hr'.view, hr'.current_eq⟩
  · intro habove
    obtain ⟨g, t, w, hl, hr'⟩ := halts habove
    exact ⟨g, t, w, hl.ends_halted rest, hr'.view, hr'.current_eq, hr'.keeps.current⟩
  · intro hstate lower note hlower hnote
    obtain ⟨g, t, w, hd, hg, hr'⟩ :=
      Setting.delivers_detached rest hr hj hstate hnote hlower
    exact ⟨g, t, w, hd, hg, hr'.view, hr'.current_eq⟩

/-- Notified of the two blocks, the follower of the fork is on the first one; on a walk it halts. -/
theorem walk_on_short_chain_fork :
    let note (b : Block) : Notification := ⟨"g", .detach, b.payload, 9, false⟩
    (∃ g t w, Fork.cutSetting.host.Ends Fork.wait (Fork.follower, .asks (.target 1)) (Fork.store, 1)
        ((g, .halted (.noUndoRecord "g" Fork.start.tip)), t) ∧
      g.view = some w ∧ w.current = ⟨Fork.start.tip, []⟩) ∧
    ∃ g t w, Fork.cutSetting.host.Delivers Fork.wait [note Fork.left, note Fork.start]
        Fork.follower (Fork.store, 1) g t ∧
      g.state = .synced ∧ g.view = some w ∧ w.current = ⟨Fork.start.tip, []⟩ := by
  intro note
  obtain ⟨_, halts, comes⟩ := walk_on_short_chain_iff (S := Fork.cutSetting) (s := (Fork.store, 1))
    Fork.reached_left rfl Fork.applies_left.stands_cons Fork.journaled_left Fork.known_cut
    (Fork.still_setting.rests _) (by decide) 1 Fork.wait
  refine ⟨?_, ?_⟩
  · obtain ⟨g, t, w, hends, hw, hcur, _⟩ := halts (by decide)
    exact ⟨g, t, w, hends, hw, hcur⟩
  · refine comes rfl [Fork.start] note ?_ fun b => ⟨rfl, rfl, rfl⟩
    intro b hb
    rw [List.mem_singleton.mp hb]
    exact ⟨rfl, UInt64.le_refl _⟩

/-- One block above the first one, the follower of the fork halts instead of ending its walk. -/
theorem walk_on_short_chain_halts :
    Reached Fork.rules Fork.ledger
        ⟨Fork.follower, .returned (.ok ()), Fork.cutSetting.held (Fork.store, 1)⟩ ∧
      Fork.rules.Journaled Fork.ledger (Fork.cutSetting.held (Fork.store, 1)) [Fork.left] ∧
      (∀ b ∈ [Fork.ledger.first, Fork.left], Fork.cutSetting.Known 1 b) ∧
      Fork.cutSetting.Rests (Fork.store, 1) ∧
      (Fork.cut 1).tip.header.height < Fork.start.header.height ∧
      (∃ g t, Fork.cutSetting.host.Ends Fork.wait (Fork.follower, .asks (.target 1)) (Fork.store, 1)
        ((g, .halted (.noUndoRecord "g" Fork.start.tip)), t)) ∧
      ¬∃ g t result, Fork.cutSetting.host.Ends Fork.wait (Fork.follower, .asks (.target 1))
        (Fork.store, 1) ((g, .returned result), t) := by
  have hready : Fork.cutSetting.Ready Fork.follower (Fork.store, 1) Fork.view [Fork.left] :=
    Fork.ready_left (Fork.known_cut _ (.tail _ (.head _)))
  have hrests : Fork.cutSetting.Rests (Fork.store, 1) := Fork.still_setting.rests _
  obtain ⟨g, t, w, hl, _⟩ := Setting.leads_halted_of_short hready Fork.journaled_left
    (Fork.known_cut _ (.head _)) Fork.reached_left.record_initial hrests (by decide) (by decide) 1
  have hends := hl.ends_halted Fork.wait
  refine ⟨Fork.reached_left, Fork.journaled_left, Fork.known_cut, hrests, by decide, ⟨g, t, hends⟩,
    ?_⟩
  rintro ⟨g', t', result, hends'⟩
  cases hends'.unique hends

end Snapshot

end ChainFollower
