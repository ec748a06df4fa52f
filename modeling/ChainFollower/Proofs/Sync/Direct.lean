import ChainFollower.Proofs.Sync.OneBlock
import ChainFollower.Proofs.Sync.Setting

namespace ChainFollower

variable {σ : Type} {host : Host σ} {rest : Duration → σ → σ}

/-- The chain ends at `target`, has these hashes, serves this payload for the block, and stays so. -/
structure Host.Shows (host : Host σ) (target : Tip) (hashAt : UInt64 → Option Hash) (game : String)
    (hash : Hash) (payload : Json) : Prop where
  info : ∃ network, ∀ s, host.answer (.chain .info) s = (.ok ⟨network, target⟩, s)
  hashes : ∀ height s, host.answer (.chain (.hashAt height)) s = (.ok (hashAt height), s)
  block : ∀ s, host.answer (.chain (.block game hash)) s = (.ok payload, s)

/-- The two calls come to the same end, with the same state of game and host, and with the same status
unless they halt. -/
def Host.SameEnd (host : Host σ) (rest : Duration → σ → σ) (p q : Follower × Follower.Next) (s : σ) :
    Prop :=
  ∃ g h e t, host.Ends rest p s ((g, e), t) ∧ host.Ends rest q s ((h, e), t) ∧ g.view = h.view ∧
    ∀ result, e = .returned result → g.status = h.status

namespace Host

variable {f g : Follower} {v : View} {header : Header} {payload : Json} {attempt : Nat} {target : Tip}
  {s : σ}

theorem sameEnd_failed {p q : Follower × Follower.Next} {t : σ} (hg : f.Alike g)
    (hf : f.state ≠ .uninitialized) (hgs : g.state ≠ .uninitialized)
    (hp : host.Leads p s (f.fail, .returned (.ok ())) t)
    (hq : host.Leads q s (g.fail, .returned (.ok ())) t) : host.SameEnd rest p q s := by
  refine ⟨f.fail, g.fail, _, t, hp.ends_returned rest, hq.ends_returned rest, ?_, fun _ _ => ?_⟩
  · rw [Follower.alike_fail.view, Follower.alike_fail.view, hg.view]
  · rw [Follower.status_fail hf, Follower.status_fail hgs, hg.tip?]

/-- A block is applied on notification as it is at the end of a walk. -/
theorem sameEnd_apply (hf : f.state = .synced) (hg : f.Alike g) (hgs : g.state ≠ .uninitialized)
    (hle : target.height ≤ header.height) :
    host.SameEnd rest (f, .asks (.apply .notified v header payload))
      (g, .asks (.apply (.walk attempt target) v header payload)) s := by
  obtain ⟨t, ⟨halt, hl⟩ | ⟨e, hl⟩ | ⟨state, hl⟩⟩ := host.exists_applied f v header payload s
  · exact ⟨f, g, _, t, (hl f _ (.refl f)).ends_halted rest, (hl g _ hg).ends_halted rest,
      hg.view.symm, by rintro _ ⟨⟩⟩
  · exact sameEnd_failed hg (by simp [hf]) hgs (hl f .notified (.refl f))
      (hl g (.walk attempt target) hg)
  · have hend : (g.setCurrent ⟨header.tip, state⟩).applied (.walk attempt target) header.tip =
        ((g.setCurrent ⟨header.tip, state⟩).setState .synced, .returned (.ok ())) := if_pos hle
    have hwalk := hl g (.walk attempt target) hg
    rw [hend] at hwalk
    refine ⟨_, _, _, t, (hl f .notified (.refl f)).ends_returned rest, hwalk.ends_returned rest, ?_,
      fun _ _ => ?_⟩
    · show f.view.map _ = g.view.map _
      rw [hg.view]
    · simp [Follower.status, Follower.tip?, Follower.setState, Follower.setCurrent,
        Follower.publish, hf, hg.view]

/-- A block is undone on notification as it is on a walk to its parent. -/
theorem sameEnd_undo {parent : Tip} {hashAt : UInt64 → Option Hash} (hf : f.state = .synced)
    (hg : f.Alike g) (hgs : g.state ≠ .uninitialized)
    (hashes : ∀ height s, host.answer (.chain (.hashAt height)) s = (.ok (hashAt height), s))
    (hheight : parent.height = lower v.current.tip.height)
    (hparent : hashAt parent.height = some parent.hash)
    (hrecord : ∀ record, (host.answer (.undo v.current.tip) s).1 = .ok (some record) →
      record.parent = parent.hash) :
    host.SameEnd rest (f, .asks (.lookup .notified v payload))
      (g, .asks (.lookup (.walk attempt parent) v payload)) s := by
  obtain ⟨t, ⟨halt, hl⟩ | ⟨e, hl⟩ | ⟨record, state, hundo, hl⟩⟩ :=
    host.exists_undone f v payload s
  · exact ⟨f, g, _, t, (hl f _ (.refl f)).ends_halted rest, (hl g _ hg).ends_halted rest,
      hg.view.symm, by rintro _ ⟨⟩⟩
  · exact sameEnd_failed hg (by simp [hf]) hgs (hl f .notified (.refl f))
      (hl g (.walk attempt parent) hg)
  · have htip : (⟨lower v.current.tip.height, record.parent⟩ : Tip) = parent := by
      rw [← hheight, hrecord record hundo]
    rw [htip] at hl
    have hend : (g.setCurrent ⟨parent, state⟩).compared attempt parent parent
        (hashAt parent.height) =
          ((g.setCurrent ⟨parent, state⟩).setState .synced, .returned (.ok ())) := by
      simp [Follower.compared, hparent, Follower.forkReached, Follower.climb]
    have hcompare : host.Leads
        (g.setCurrent ⟨parent, state⟩, .asks (.compare attempt parent parent)) t
        ((g.setCurrent ⟨parent, state⟩).compared attempt parent parent (hashAt parent.height)) t :=
      .of_answer _ (.compare attempt parent parent) (hashes parent.height t)
    rw [hend] at hcompare
    have hwalk := (hl g (.walk attempt parent) hg).trans hcompare
    refine ⟨_, _, _, t, (hl f .notified (.refl f)).ends_returned rest, hwalk.ends_returned rest, ?_,
      fun _ _ => ?_⟩
    · show f.view.map _ = g.view.map _
      rw [hg.view]
    · simp [Follower.status, Follower.tip?, Follower.setState, Follower.setCurrent,
        Follower.publish, hf, hg.view]

namespace Shows

variable {hashAt : UInt64 → Option Hash} {game : String} {hash : Hash}

theorem leads_target (h : host.Shows target hashAt game hash payload) (g : Follower) (attempt : Nat)
    (s : σ) : host.Leads (g, .asks (.target attempt)) s (g.targetKnown attempt target) s := by
  obtain ⟨network, hinfo⟩ := h.info
  exact .of_answer g (.target attempt) (hinfo s)

theorem leads_compare (h : host.Shows target hashAt game hash payload) (g : Follower) (attempt : Nat)
    (tip : Tip) (s : σ) :
    host.Leads (g, .asks (.compare attempt target tip)) s
      (g.compared attempt target tip (hashAt tip.height)) s :=
  .of_answer g (.compare attempt target tip) (h.hashes tip.height s)

theorem leads_next (h : host.Shows target hashAt game hash payload) (g : Follower) (attempt : Nat)
    (tip : Tip) (s : σ) :
    host.Leads (g, .asks (.next attempt target tip)) s
      (g.nextKnown attempt target tip (hashAt (tip.height + 1))) s :=
  .of_answer g (.next attempt target tip) (h.hashes (tip.height + 1) s)

theorem leads_fetchStale {tip : Tip} (h : host.Shows target hashAt game tip.hash payload)
    (hg : g.game = game) (attempt : Nat) (s : σ) :
    host.Leads (g, .asks (.fetchStale attempt target tip)) s
      (g.staleFetched attempt target tip payload) s :=
  .of_answer g (.fetchStale attempt target tip) (hg ▸ h.block s)

theorem leads_fetchNext {requested : Tip} (h : host.Shows target hashAt game requested.hash payload)
    (hg : g.game = game) (attempt : Nat) (tip : Tip) (s : σ) :
    host.Leads (g, .asks (.fetchNext attempt target tip requested)) s
      (g.nextFetched attempt target tip requested payload) s :=
  .of_answer g (.fetchNext attempt target tip requested) (hg ▸ h.block s)

end Shows

/-- The chain is the local branch with one more block, which is that of the payload. -/
structure Extends (host : Host σ) (f : Follower) (v : View) (header : Header) (payload : Json)
    (hashAt : UInt64 → Option Hash) : Prop where
  shows : host.Shows header.tip hashAt f.game header.hash payload
  tip_eq : hashAt v.current.tip.height = some v.current.tip.hash
  next_eq : ∀ height, height.toNat = v.current.tip.height.toNat + 1 →
    hashAt height = some header.hash

/-- The chain is the local branch without its newest block, which is that of the payload; its tip is the
parent that the store has recorded. -/
structure Recedes (host : Host σ) (f : Follower) (v : View) (header : Header) (payload : Json)
    (parent : Tip) (hashAt : UInt64 → Option Hash) (s : σ) : Prop where
  shows : host.Shows parent hashAt f.game header.hash payload
  tip_ne : hashAt v.current.tip.height ≠ some v.current.tip.hash
  height_eq : parent.height = lower v.current.tip.height
  parent_eq : hashAt parent.height = some parent.hash
  record : ∀ record, (host.answer (.undo v.current.tip) s).1 = .ok (some record) →
    record.parent = parent.hash

namespace Extends

variable {hashAt : UInt64 → Option Hash}

/-- A walk to the new block finds the local tip on the chain. -/
theorem leads_fork (h : host.Extends f v header payload hashAt) (hv : f.view = some v)
    (hpre : v.predates header = false) (hne : header.hash ≠ v.current.tip.hash) (hg : f.Alike g)
    (attempt : Nat) (s : σ) :
    host.Leads (g, .asks (.target attempt)) s (g.forkReached attempt header.tip v.current.tip) s := by
  have htip : header.tip ≠ v.current.tip := fun heq => hne (congrArg Tip.hash heq)
  have hfar : ¬(v.current.tip = v.initial ∧ header.tip.height < v.initial.height) := by
    rintro ⟨heq, hlt⟩
    have hle : header.height ≤ v.initial.height := UInt64.le_of_lt hlt
    simp [View.predates, heq, hle] at hpre
  have hknown : g.targetKnown attempt header.tip =
      (g, .asks (.compare attempt header.tip v.current.tip)) := by
    simp [Follower.targetKnown, hg.view.trans hv, htip, hfar]
  have hcompared : g.compared attempt header.tip v.current.tip (hashAt v.current.tip.height) =
      g.forkReached attempt header.tip v.current.tip := if_pos h.tip_eq
  have htarget := h.shows.leads_target g attempt s
  rw [hknown] at htarget
  exact htarget.trans (hcompared ▸ h.shows.leads_compare g attempt v.current.tip s)

/-- A target that is not above the local tip is nothing to walk to. -/
theorem unmoved_of_le (h : host.Extends f v header payload hashAt) (hv : f.view = some v)
    (hpre : v.predates header = false) (hne : header.hash ≠ v.current.tip.hash)
    (hle : header.height ≤ v.current.tip.height) (attempt : Nat) (s : σ) :
    host.Unmoved rest f (f, .asks (.target attempt)) s := by
  have hl := h.leads_fork hv hpre hne (.refl f) attempt s
  have hend : f.forkReached attempt header.tip v.current.tip =
      (f.setState .synced, .returned (.ok ())) := by
    have hheight : header.tip.height ≤ v.current.tip.height := hle
    simp [Follower.forkReached, Follower.climb, UInt64.not_lt.mpr hheight, hheight]
  rw [hend] at hl
  exact ⟨_, [], hl.ends_returned rest, rfl⟩

/-- Otherwise the new block is fetched. -/
theorem leads_fetched (h : host.Extends f v header payload hashAt) (hv : f.view = some v)
    (hpre : v.predates header = false) (hne : header.hash ≠ v.current.tip.hash)
    (hlt : v.current.tip.height < header.height) (hg : f.Alike g) (attempt : Nat) (s : σ) :
    host.Leads (g, .asks (.target attempt)) s
      ((g.setState .catchingUp).nextFetched attempt header.tip v.current.tip
        ⟨v.current.tip.height + 1, header.hash⟩ payload) s := by
  have hl := h.leads_fork hv hpre hne hg attempt s
  have hheight : v.current.tip.height < header.tip.height := hlt
  have hnext : g.forkReached attempt header.tip v.current.tip =
      (g.setState .catchingUp, .asks (.next attempt header.tip v.current.tip)) := by
    simp [Follower.forkReached, Follower.climb, hheight, UInt64.not_le.mpr hheight]
  rw [hnext] at hl
  have hasks := h.shows.leads_next (g.setState .catchingUp) attempt v.current.tip s
  rw [h.next_eq _ (Ledger.toNat_succ_of_lt hlt)] at hasks
  have hgame : (g.setState .catchingUp).game = f.game := hg.game
  have hfetch : host.Leads (g.setState .catchingUp, .asks (.fetchNext attempt header.tip v.current.tip
      ⟨v.current.tip.height + 1, header.hash⟩)) s
      ((g.setState .catchingUp).nextFetched attempt header.tip v.current.tip
        ⟨v.current.tip.height + 1, header.hash⟩ payload) s :=
    h.shows.leads_fetchNext hgame attempt v.current.tip s
  exact (hl.trans hasks).trans hfetch

end Extends

namespace Recedes

variable {parent : Tip} {hashAt : UInt64 → Option Hash} {u : σ}

/-- A walk to the parent ends at once where the chain has not come so far as the game, and fetches the
local tip otherwise. -/
theorem leads_stale (h : host.Recedes f v header payload parent hashAt u) (hv : f.view = some v)
    (hhash : header.hash = v.current.tip.hash) (hg : f.Alike g) (attempt : Nat) (s : σ) :
    host.Leads (g, .asks (.target attempt)) s
      (if v.current.tip = v.initial ∧ parent.height < v.initial.height then
        (g.setState .synced, .returned (.ok ()))
      else (g.setState .reorganizing).staleFetched attempt parent v.current.tip payload) s := by
  have hne : parent ≠ v.current.tip := by
    rintro rfl
    exact h.tip_ne h.parent_eq
  have htarget := h.shows.leads_target g attempt s
  unfold Follower.targetKnown at htarget
  rw [hg.view.trans hv] at htarget
  simp only [if_neg hne] at htarget
  split at htarget
  · next hshort =>
    rw [if_pos hshort]
    exact htarget
  · next hshort =>
    rw [if_neg hshort]
    have hcompare := h.shows.leads_compare g attempt v.current.tip s
    rw [show g.compared attempt parent v.current.tip (hashAt v.current.tip.height) =
      (g.setState .reorganizing, .asks (.fetchStale attempt parent v.current.tip)) from
        if_neg h.tip_ne] at hcompare
    have hshows : host.Shows parent hashAt f.game v.current.tip.hash payload := hhash ▸ h.shows
    have hgame : (g.setState .reorganizing).game = f.game := hg.game
    exact (htarget.trans hcompare).trans (hshows.leads_fetchStale hgame attempt s)

end Recedes

theorem SameEnd.of_leads {p q r : Follower × Follower.Next} (h : host.SameEnd rest p q s)
    (hl : host.Leads r s q s) : host.SameEnd rest p r s := by
  obtain ⟨g, k, e, t, hp, hq, hview, hstatus⟩ := h
  exact ⟨g, k, e, t, hp, hl.ends hq, hview, hstatus⟩

/-- With `follows`, the two calls are the same; without, the second one moves nothing, so that they
differ wherever the first one moves something. -/
structure Agrees (host : Host σ) (rest : Duration → σ → σ) (f : Follower)
    (p q : Follower × Follower.Next) (s : σ) (follows : Prop) : Prop where
  same : follows → host.SameEnd rest p q s
  unmoved : ¬follows → host.Unmoved rest f q s
  iff : ∀ g e t h e' t', host.Ends rest p s ((g, e), t) → host.Ends rest q s ((h, e'), t') →
    g.view ≠ f.view → (g.view = h.view ↔ follows)

theorem Agrees.of_cases {p q : Follower × Follower.Next} {follows : Prop}
    (same : follows → host.SameEnd rest p q s) (unmoved : ¬follows → host.Unmoved rest f q s) :
    host.Agrees rest f p q s follows := by
  refine ⟨same, unmoved, fun g e t h e' t' hp hq hmoved => ?_⟩
  by_cases hfollows : follows
  · obtain ⟨g', h', e₀, t₀, hp', hq', hview, _⟩ := same hfollows
    cases hp.unique hp'
    cases hq.unique hq'
    exact ⟨fun _ => hfollows, fun _ => hview⟩
  · obtain ⟨h', ds, hq', hview⟩ := unmoved hfollows
    cases hq.unique hq'
    exact ⟨fun heq => absurd (heq.trans hview) hmoved, fun h => absurd h hfollows⟩

theorem Extends.agrees {hashAt : UInt64 → Option Hash}
    (h : host.Extends f v header payload hashAt) (hv : f.view = some v) (hstate : f.state = .synced)
    (hheader : payloadHeader payload = .ok header) (hpre : v.predates header = false)
    (hne : header.hash ≠ v.current.tip.hash) (hparent : header.parent = v.current.tip.hash)
    (s : σ) :
    host.Agrees rest f (f, .asks (.apply .notified v header payload)) (f, .asks (.target 1)) s
      (header.height.toNat = v.current.tip.height.toNat + 1) := by
  refine .of_cases ?_ ?_
  · intro hheight
    have hlt : v.current.tip.height < header.height := by
      rw [UInt64.lt_iff_toNat_lt]
      omega
    have hl := h.leads_fetched hv hpre hne hlt (.refl f) 1 s
    have hrequested : (⟨v.current.tip.height + 1, header.hash⟩ : Tip) = header.tip := by
      have heq : v.current.tip.height + 1 = header.height :=
        UInt64.toNat_inj.mp ((Ledger.toNat_succ_of_lt hlt).trans hheight.symm)
      rw [heq]
      rfl
    have hfetched : (f.setState .catchingUp).nextFetched 1 header.tip v.current.tip header.tip payload =
        (f.setState .catchingUp, .asks (.apply (.walk 1 header.tip) v header payload)) := by
      have hview : (f.setState .catchingUp).view = some v := hv
      simp [Follower.nextFetched, Follower.checkBlock_of_tip hheader rfl, hparent, hview]
    rw [hrequested, hfetched] at hl
    have hin : (f.setState .catchingUp).state ≠ .uninitialized := by rintro ⟨⟩
    have hle : header.tip.height ≤ header.height := UInt64.le_refl _
    exact (sameEnd_apply hstate Follower.alike_setState hin hle).of_leads hl
  · intro hheight
    by_cases hlt : v.current.tip.height < header.height
    · refine unmoved_of_failing (fun g attempt s hg => ?_) (.refl f) 1 s
      have hother : header.tip ≠ ⟨v.current.tip.height + 1, header.hash⟩ := by
        intro heq
        have hsucc : header.height = v.current.tip.height + 1 := congrArg Tip.height heq
        exact hheight (hsucc ▸ Ledger.toNat_succ_of_lt hlt)
      refine ⟨g.setState .catchingUp, .otherBlock ⟨v.current.tip.height + 1, header.hash⟩ header.tip,
        hg.trans Follower.alike_setState, ?_⟩
      have hl := h.leads_fetched hv hpre hne hlt hg attempt s
      unfold Follower.nextFetched Follower.checkBlock at hl
      simp only [hheader, if_neg hother] at hl
      exact hl
    · exact h.unmoved_of_le hv hpre hne (UInt64.not_lt.mp hlt) 1 s

theorem Recedes.agrees {parent : Tip} {hashAt : UInt64 → Option Hash}
    (h : host.Recedes f v header payload parent hashAt s) (hv : f.view = some v)
    (hstate : f.state = .synced) (hheader : payloadHeader payload = .ok header)
    (hpre : v.predates header = false) (hhash : header.hash = v.current.tip.hash) :
    host.Agrees rest f (f, .asks (.lookup .notified v payload)) (f, .asks (.target 1)) s
      (header.height = v.current.tip.height) := by
  refine .of_cases ?_ ?_
  · intro hheight
    have hl := h.leads_stale hv hhash (.refl f) 1 s
    have hshort : ¬(v.current.tip = v.initial ∧ parent.height < v.initial.height) := by
      rintro ⟨heq, _⟩
      simp [View.predates, heq, hheight] at hpre
    have htip : header.tip = v.current.tip := by
      show (⟨header.height, header.hash⟩ : Tip) = _
      rw [hheight, hhash]
    have hview : (f.setState .reorganizing).view = some v := hv
    rw [if_neg hshort] at hl
    unfold Follower.staleFetched at hl
    simp only [Follower.checkBlock_of_tip hheader htip, hview] at hl
    have hin : (f.setState .reorganizing).state ≠ .uninitialized := by rintro ⟨⟩
    exact (sameEnd_undo hstate Follower.alike_setState hin h.shows.hashes h.height_eq h.parent_eq
      h.record).of_leads hl
  · intro hheight
    by_cases hshort : v.current.tip = v.initial ∧ parent.height < v.initial.height
    · have hl := h.leads_stale hv hhash (.refl f) 1 s
      rw [if_pos hshort] at hl
      exact ⟨_, [], hl.ends_returned rest, rfl⟩
    · refine unmoved_of_failing (fun g attempt s hg => ?_) (.refl f) 1 s
      have hother : header.tip ≠ v.current.tip := fun heq => hheight (congrArg Tip.height heq)
      refine ⟨g.setState .reorganizing, .otherBlock v.current.tip header.tip,
        hg.trans Follower.alike_setState, ?_⟩
      have hl := h.leads_stale hv hhash hg attempt s
      rw [if_neg hshort] at hl
      unfold Follower.staleFetched Follower.checkBlock at hl
      simp only [hheader, if_neg hother] at hl
      exact hl

/-- A block that a notification moves the local state to is the one of its payload. -/
theorem tip_of_applied (hv : f.view = some v) {g : Follower} {e : Follower.End} {t : σ}
    (hends : host.Ends rest (f, .asks (.apply .notified v header payload)) s ((g, e), t))
    (hmoved : g.view ≠ f.view) : g.tip? = some header.tip := by
  obtain ⟨t', ⟨halt, hl⟩ | ⟨err, hl⟩ | ⟨state, hl⟩⟩ := host.exists_applied f v header payload s
  · cases hends.unique ((hl f .notified (.refl f)).ends_halted rest)
    exact absurd rfl hmoved
  · cases hends.unique ((hl f .notified (.refl f)).ends_returned rest)
    exact absurd Follower.alike_fail.view hmoved
  · cases hends.unique ((hl f .notified (.refl f)).ends_returned rest)
    exact Follower.tip?_setCurrent hv

/-- A follower in step takes a notification in sequence at its word, where its block lies on the local
tip or is the local tip. That agrees with a walk on a chain that is one block longer, or one shorter,
and serves the same payload, exactly where the header names the height after that of the local tip, or
that of the local tip. At any other height the walk moves nothing, whatever the notification does. -/
theorem notified_agrees_with_walk {note : Notification} (hv : f.view = some v)
    (hstate : f.state = .synced) (hnote : note.mismatch = false)
    (hheader : payloadHeader note.payload = .ok header) (hpre : v.predates header = false)
    (rest : Duration → σ → σ) (s : σ) :
    (note.kind = .attach → header.parent = v.current.tip.hash →
      header.hash ≠ v.current.tip.hash →
      ∀ hashAt, host.Extends f v header note.payload hashAt →
        host.Agrees rest f (f.notified note) (f, .asks (.target 1)) s
          (header.height.toNat = v.current.tip.height.toNat + 1) ∧
        ∀ g e t, host.Ends rest (f.notified note) s ((g, e), t) → g.view ≠ f.view →
          g.tip? = some header.tip) ∧
    (note.kind = .detach → header.hash = v.current.tip.hash →
      ∀ parent hashAt, host.Recedes f v header note.payload parent hashAt s →
        host.Agrees rest f (f.notified note) (f, .asks (.target 1)) s
          (header.height = v.current.tip.height)) := by
  refine ⟨?_, ?_⟩
  · intro hkind hparent hne hashAt h
    have heq : f.notified note = (f, .asks (.apply .notified v header note.payload)) := by
      unfold Follower.notified
      rw [hkind]
      simp [Follower.attached, hheader, hv, hne, hpre, hstate, hnote, hparent]
    rw [heq]
    exact ⟨h.agrees hv hstate hheader hpre hne hparent s, fun g e t => tip_of_applied hv⟩
  · intro hkind hhash parent hashAt h
    have heq : f.notified note = (f, .asks (.lookup .notified v note.payload)) := by
      unfold Follower.notified
      rw [hkind]
      simp [Follower.detached, hheader, hv, hpre, hstate, hnote, hhash]
    rw [heq]
    exact h.agrees hv hstate hheader hpre hhash

end Host

/-- A chain that always shows the same, beside a store in memory. -/
def Host.showing (R : Rules) (target : Tip) (hashAt : UInt64 → Option Hash) (payload : Json) :
    Host MemoryStore where
  source := ⟨fun
    | .info, s => (.ok ⟨R.network, target⟩, s)
    | .hashAt height, s => (.ok (hashAt height), s)
    | .block _ _, s => (.ok payload, s)⟩
  store := MemoryStore.store
  game := Setting.obedientGame R _

theorem Host.shows_showing (R : Rules) (target : Tip) (hashAt : UInt64 → Option Hash)
    (payload : Json) (game : String) (hash : Hash) :
    (Host.showing R target hashAt payload).Shows target hashAt game hash payload :=
  ⟨⟨R.network, fun _ => rfl⟩, fun _ _ => rfl, fun _ => rfl⟩

namespace Fork

/-- The hashes of a chain that ends with this block on `start`. -/
def hashesTo (hash : Hash) (height : UInt64) : Option Hash :=
  if height = 1 then some start.header.hash else if height = 2 then some hash else none

/-- A chain that ends with this block at the height two, whatever the block says. -/
def hostTo (b : Block) : Host MemoryStore :=
  .showing rules b.tip (hashesTo b.header.hash) b.payload

theorem extends_hostTo (b : Block) :
    (hostTo b).Extends opened rootView b.header b.payload (hashesTo b.header.hash) where
  shows := Host.shows_showing ..
  tip_eq := rfl
  next_eq := by
    intro height hheight
    obtain rfl : height = 2 := UInt64.toNat_inj.mp hheight
    rfl

/-- A chain that ends with `start`. -/
def hostBelow : Host MemoryStore :=
  .showing rules start.tip (fun height => if height = 1 then some start.header.hash else none)
    left.payload

theorem recedes_hostBelow :
    hostBelow.Recedes follower view left.header left.payload start.tip
      (fun height => if height = 1 then some start.header.hash else none) store where
  shows := Host.shows_showing ..
  tip_ne := by decide
  height_eq := rfl
  parent_eq := rfl
  record := by
    intro record hrecord
    have heq : (.ok (some ⟨start.header.hash, []⟩) : Except StoreError (Option UndoRecord)) =
        .ok (some record) := hrecord
    cases heq
    rfl

/-- It lies on `start`, and says that its height is seven. -/
def stray : Block := block 9 2 7

end Fork

namespace Host

theorem notified_agrees_with_walk_fork :
    (Fork.hostTo Fork.left).SameEnd (fun _ s => s)
        (Fork.opened.notified ⟨"g", .attach, Fork.left.payload, 1, false⟩)
        (Fork.opened, .asks (.target 1)) Fork.rootStore ∧
      Fork.hostBelow.SameEnd (fun _ s => s)
        (Fork.follower.notified ⟨"g", .detach, Fork.left.payload, 2, false⟩)
        (Fork.follower, .asks (.target 1)) Fork.store := by
  have hattach : payloadHeader (⟨"g", .attach, Fork.left.payload, 1, false⟩ : Notification).payload =
      .ok Fork.left.header := rfl
  have hdetach : payloadHeader (⟨"g", .detach, Fork.left.payload, 2, false⟩ : Notification).payload =
      .ok Fork.left.header := rfl
  have hrootView : Fork.opened.view = some Fork.rootView := rfl
  have hview : Fork.follower.view = some Fork.view := rfl
  have hlonger := ((notified_agrees_with_walk hrootView rfl rfl hattach (by decide) (fun _ s => s)
    Fork.rootStore).1 rfl rfl (by decide) _ (Fork.extends_hostTo Fork.left)).1
  have hshorter := (notified_agrees_with_walk hview rfl rfl hdetach (by decide) (fun _ s => s)
    Fork.store).2 rfl rfl _ _ Fork.recedes_hostBelow
  exact ⟨hlonger.same rfl, hshorter.same rfl⟩

/-- Notified of the stray block, a follower on `start` has its height afterwards, which no walk comes
to. -/
theorem notified_disagrees_with_walk :
    let note : Notification := ⟨"g", .attach, Fork.stray.payload, 1, false⟩
    Snapshot.Reached Fork.rules Fork.ledger
        ⟨Fork.opened, .returned (.ok ()), Fork.rootStore.holdings⟩ ∧
      Fork.opened.view = some Fork.rootView ∧ Fork.opened.state = .synced ∧
      payloadHeader note.payload = .ok Fork.stray.header ∧
      Fork.stray.header.parent = Fork.rootView.current.tip.hash ∧
      Fork.stray.header.hash ≠ Fork.rootView.current.tip.hash ∧
      Fork.rootView.predates Fork.stray.header = false ∧
      (Fork.hostTo Fork.stray).Extends Fork.opened Fork.rootView Fork.stray.header note.payload
        (Fork.hashesTo Fork.stray.header.hash) ∧
      (∃ g t, (Fork.hostTo Fork.stray).Ends (fun _ s => s) (Fork.opened.notified note) Fork.rootStore
          ((g, .returned (.ok ())), t) ∧ g.tip? = some ⟨7, Fork.stray.header.hash⟩) ∧
      (∃ g, (Fork.hostTo Fork.stray).Ends (fun _ s => s) (Fork.opened, .asks (.target 1))
          Fork.rootStore ((g, .returned (.ok ())), Fork.rootStore) ∧
        g.tip? = some ⟨1, Fork.start.header.hash⟩) ∧
      ¬(Fork.hostTo Fork.stray).SameEnd (fun _ s => s) (Fork.opened.notified note)
        (Fork.opened, .asks (.target 1)) Fork.rootStore := by
  intro note
  have happly : (Fork.hostTo Fork.stray).Leads
      (Fork.opened, .asks (.apply .notified Fork.rootView Fork.stray.header Fork.stray.payload))
      Fork.rootStore (Fork.opened, .asks (.advance .notified Fork.stray.header ⟨[0], []⟩))
      Fork.rootStore :=
    .of_answer Fork.opened (.apply .notified Fork.rootView Fork.stray.header Fork.stray.payload) rfl
  have hdirect := (happly.trans
    (.of_answer Fork.opened (.advance .notified Fork.stray.header ⟨[0], []⟩) rfl)).ends_returned
      (f := Fork.opened.setCurrent ⟨Fork.stray.tip, [0]⟩) fun _ s => s
  have hagrees : (Fork.hostTo Fork.stray).Agrees (fun _ s => s) Fork.opened _ _ Fork.rootStore _ :=
    (Fork.extends_hostTo Fork.stray).agrees rfl rfl rfl (by decide) (by decide) rfl Fork.rootStore
  obtain ⟨g, ds, hwalk, hview⟩ := hagrees.unmoved (by decide)
  have hrests : ∀ ds : List Duration, ds.foldl (fun s _ => s) Fork.rootStore = Fork.rootStore := by
    intro ds
    induction ds with
    | nil => rfl
    | cons d ds ih => exact ih
  rw [hrests ds] at hwalk
  have hreached : Snapshot.Reached Fork.rules Fork.ledger
      ⟨Fork.opened, .returned (.ok ()), Fork.rootStore.holdings⟩ := by
    have hheld : Fork.rootStore.holdings = Holdings.empty.commit (.withoutUndo Fork.start.tip []) := by
      simp [Fork.rootStore]
    rw [hheld]
    exact Fork.reached_opened
  refine ⟨hreached, rfl, rfl, rfl, rfl, by decide, by decide, Fork.extends_hostTo Fork.stray,
    ⟨_, _, hdirect, rfl⟩, ⟨g, hwalk, ?_⟩, ?_⟩
  · unfold Follower.tip?
    rw [hview]
    rfl
  · rintro ⟨g', h', e, t, hp, hq, _⟩
    -- The one has written to the store, the other has not.
    cases hp.unique hdirect
    cases hq.unique hwalk

end Host

end ChainFollower
