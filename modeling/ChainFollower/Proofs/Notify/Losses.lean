import ChainFollower.Proofs.Notify.Post

namespace ChainFollower

open News (told)

namespace Post

variable {L τ : Type} [Listener L] {answer : L → (r : Listener.Request L) → τ → Listener.Reply r × τ} {p : Post L τ}

/-- Later notifications of a channel have higher ordinals. -/
theorem Kept.descending (h : p.Kept) :
    p.handled.Pairwise fun a b => a.1.channel = b.1.channel → b.1.ordinal < a.1.ordinal := by
  rw [← List.pairwise_reverse, List.pairwise_iff_forall_sublist]
  intro a b hsub hchannel
  have hpair : [a.1.ordinal, b.1.ordinal].Sublist (p.course b.1.channel) := by
    have hletters : [a.1, b.1].Sublist (p.handled.reverse.map Prod.fst ++ p.transit) :=
      (hsub.map Prod.fst).trans (List.sublist_append_left _ _)
    have hfilter := (hletters.filter fun l => l.channel = b.1.channel).map Letter.ordinal
    simpa [course, hchannel] using hfilter
  have hlt := (h.ascending b.1.channel).sublist hpair
  simpa using hlt

theorem Kept.ordinal_lt (h : p.Kept) {entry : Letter × Notification} (he : entry ∈ p.handled) :
    entry.1.ordinal < p.used entry.1.channel := by
  refine h.below entry.1.channel entry.1.ordinal ?_
  have hm : entry.1 ∈ p.handled.reverse.map Prod.fst ++ p.transit :=
    List.mem_append_left _ (List.mem_map_of_mem (List.mem_reverse.mpr he))
  exact List.mem_map_of_mem (List.mem_filter.mpr ⟨hm, by simp⟩)

theorem Faithful.at_entry {later earlier : List (Letter × Notification)} {l : Letter} {n : Notification}
    (h : Faithful (later ++ (l, n) :: earlier)) :
    n.channel = l.channel ∧ n.seq = l.seq ∧
      n.mismatch = (Letter.latest l.channel earlier).any fun before => before.seq + 1 != l.seq := by
  induction later with
  | nil => exact h.1
  | cons entry later ih => exact ih h.2

/-- The latest letter on a channel, and those before it. -/
theorem latest_eq_some {c : Channel} {before : Letter} {log : List (Letter × Notification)}
    (h : Letter.latest c log = some before)
    (hlog : log.Pairwise fun a b => a.1.channel = b.1.channel → b.1.ordinal < a.1.ordinal) :
    before.channel = c ∧ (∃ n, (before, n) ∈ log) ∧
      ∀ entry ∈ log, entry.1.channel = c → entry.1.ordinal ≤ before.ordinal := by
  induction log with
  | nil => cases h
  | cons entry log ih =>
    obtain ⟨l, n⟩ := entry
    obtain ⟨hfirst, hrest⟩ := List.pairwise_cons.mp hlog
    rw [latest_cons] at h
    split at h
    · next hl =>
      cases h
      refine ⟨hl, ⟨n, List.mem_cons_self⟩, ?_⟩
      intro entry hentry hc
      rcases List.mem_cons.mp hentry with rfl | hm
      · exact Nat.le_refl _
      · exact Nat.le_of_lt (hfirst entry hm (hl.trans hc.symm))
    · next hl =>
      obtain ⟨hchannel, ⟨n', hm⟩, hall⟩ := ih h hrest
      refine ⟨hchannel, ⟨n', List.mem_cons_of_mem _ hm⟩, ?_⟩
      intro entry hentry hc
      rcases List.mem_cons.mp hentry with rfl | hm'
      · exact absurd hc hl
      · exact hall entry hm' hc

/-- Numbers that are less than a full round apart follow each other only as neighbours. -/
theorem seq_follows_iff {before l : Letter} (hlt : before.ordinal < l.ordinal)
    (hround : l.ordinal ≤ before.ordinal + UInt32.size) :
    before.seq + 1 = l.seq ↔ l.ordinal = before.ordinal + 1 := by
  have hnext : before.seq + 1 = UInt32.ofNat (before.ordinal + 1) := (UInt32.ofNat_add _ 1).symm
  rw [hnext, Letter.seq, ← UInt32.toNat_inj, UInt32.toNat_ofNat', UInt32.toNat_ofNat']
  simp only [UInt32.size] at hround
  omega

/-- A number of a channel that was used and not handled. -/
def Lost (p : Post L τ) (c : Channel) (k : Nat) : Prop :=
  k < p.used c ∧ ∀ entry ∈ p.handled, entry.1.channel = c → entry.1.ordinal ≠ k

/-- Where two numbers of a channel are handled one after the other, what is between them is lost. -/
theorem Kept.exists_lost_iff (h : p.Kept) {later earlier : List (Letter × Notification)} {l before : Letter}
    {n : Notification} (hsplit : p.handled = later ++ (l, n) :: earlier)
    (hlatest : Letter.latest l.channel earlier = some before) :
    before.ordinal < l.ordinal ∧
      ((∃ k, p.Lost l.channel k ∧ before.ordinal < k ∧ k < l.ordinal) ↔ before.ordinal + 1 < l.ordinal) := by
  have hlog := h.descending
  rw [hsplit] at hlog
  obtain ⟨_, hlog', hacross⟩ := List.pairwise_append.mp hlog
  obtain ⟨hfirst, hearlier⟩ := List.pairwise_cons.mp hlog'
  obtain ⟨hsame, ⟨n', hm⟩, hall⟩ := latest_eq_some hlatest hearlier
  have hmem : (l, n) ∈ p.handled := by
    rw [hsplit]
    exact List.mem_append_right _ List.mem_cons_self
  have hused : l.ordinal < p.used l.channel := h.ordinal_lt hmem
  refine ⟨hfirst (before, n') hm hsame.symm, ?_, fun hgap => ?_⟩
  · rintro ⟨k, _, hlow, hhigh⟩
    omega
  · refine ⟨before.ordinal + 1, ⟨by omega, fun entry hentry hc => ?_⟩, by omega, hgap⟩
    rw [hsplit] at hentry
    rcases List.mem_append.mp hentry with hlater | hrest
    · have hlt := hacross entry hlater (l, n) List.mem_cons_self hc
      simp only at hlt
      omega
    · rcases List.mem_cons.mp hrest with rfl | hm
      · simp only
        omega
      · have hle := hall entry hm hc
        omega

/-- A notification tells of a loss exactly when a number between it and the one before it is lost. -/
theorem Kept.flagged_iff (h : p.Kept) {later earlier : List (Letter × Notification)} {l : Letter} {n : Notification}
    (hsplit : p.handled = later ++ (l, n) :: earlier)
    (hround : ∀ before, Letter.latest l.channel earlier = some before →
      l.ordinal ≤ before.ordinal + UInt32.size) :
    n.mismatch = true ↔ ∃ before, Letter.latest l.channel earlier = some before ∧
      ∃ k, p.Lost l.channel k ∧ before.ordinal < k ∧ k < l.ordinal := by
  have hfaithful := h.faithful
  rw [hsplit] at hfaithful
  obtain ⟨_, _, hmismatch⟩ := hfaithful.at_entry
  rw [hmismatch]
  cases hlatest : Letter.latest l.channel earlier with
  | none => simp
  | some before =>
    obtain ⟨hlt, hlost⟩ := h.exists_lost_iff hsplit hlatest
    simp only [Option.any_some, Option.some.injEq, exists_eq_left']
    rw [hlost, bne_iff_ne, ne_eq, seq_follows_iff hlt (hround before hlatest)]
    omega

/-- The worker gets on with its calls. -/
theorem Reached.toils (h : Reached answer p) {w w' : Worker (Logged L)} {rest : τ}
    (hw : p.subscriber.worker = some w)
    (htoils : Relation.ReflTransGen (Worker.Toils (Logged.answer answer) p.bus) (w, p.rest) (w', rest)) :
    Reached answer { p with subscriber := { p.subscriber with worker := some w' }, rest } := by
  have hall (x : Worker (Logged L) × τ)
      (hx : Relation.ReflTransGen (Worker.Toils (Logged.answer answer) p.bus) (w, p.rest) x) :
      Reached answer { p with subscriber := { p.subscriber with worker := some x.1 }, rest := x.2 } := by
    induction hx with
    | refl =>
      rw [← hw]
      exact h
    | tail _ hstep ih =>
      obtain ⟨hbusy, now, hstep⟩ := hstep
      have hnext := ih.step (.work now rfl hstep)
      rw [noted_of_busy hbusy] at hnext
      exact hnext
  exact hall _ htoils

/-- Where calls come to an end, a worker that waits handles every letter that waits for it, if it is about one of
its games and can be read. -/
theorem Reached.exists_empty (hreturn : Listener.AllReturn answer) (h : Reached answer p) {w : Worker (Logged L)}
    (hw : p.subscriber.worker = some w) (hawaits : w.Awaits)
    (hread : ∀ l ∈ p.transit, l.channel.game ∈ w.listeners.map Prod.fst ∧
      ∃ read, Json.parse? l.payload.bytes = some read) :
    ∃ w' bus rest handled, Reached answer { p with
        subscriber := { p.subscriber with worker := some w' }, bus, rest, transit := [], handled } ∧
      w'.Awaits ∧ w'.shape = w.shape ∧
      handled.map Prod.fst = p.transit.reverse ++ p.handled.map Prod.fst := by
  generalize ht : p.transit = letters at hread
  induction letters generalizing p w with
  | nil =>
    refine ⟨w, p.bus, p.rest, p.handled, ?_, hawaits, rfl, rfl⟩
    rw [← hw, ← ht]
    exact h
  | cons l letters ih =>
    obtain ⟨hgame, read, hparse⟩ := hread l List.mem_cons_self
    obtain ⟨n, hn, hnoted⟩ := h.kept.exists_noted hw hawaits ht hgame hparse
    obtain ⟨sock, hsock, _, hqueue⟩ := h.kept.queue w hw
    rw [ht, List.map_cons] at hqueue
    have hstep := Worker.step?_of_pop (Logged.answer answer) p.rest 0 hawaits (Bus.pop?_of_queue hsock hqueue)
    rw [if_pos (h.kept.accepts hw hgame), Worker.handle_of_notice hn] at hstep
    have htaken := h.step (.work 0 hw hstep)
    rw [hnoted] at htaken
    obtain ⟨w₁, rest₁, htoils, hfree, hnone, halike⟩ := Worker.exists_done hreturn.logged
      (w := { w with
        tracker := w.tracker.record n.channel n.seq
        errands := if w.suppressed then [] else w.round n })
      (Worker.activity_of_isFree hawaits.1) _ p.rest
    have hawaits₁ : w₁.Awaits :=
      ⟨by simp [Worker.isFree, hfree], hnone, halike.stopping.trans hawaits.2.2⟩
    obtain ⟨w', bus, rest, handled, hreached, hawaits', hshape, hhandled⟩ :=
      ih (htaken.toils rfl htoils) rfl hawaits₁ rfl fun l' hl' => by
        rw [Worker.games_of_shape halike.shape]
        exact hread l' (List.mem_cons_of_mem _ hl')
    refine ⟨w', bus, rest, handled, hreached, hawaits', hshape.trans halike.shape, ?_⟩
    rw [hhandled, List.reverse_cons, List.append_assoc]
    rfl

/-- In either mode, however often the worker was stopped and started: a notification carries the number
of its letter, and it tells of a loss exactly when one was handled on its channel before it and a number
between the two is lost; without a worker, the last number of a channel is that of the last notification
handled on it. The letters in transit wait for the worker, which handles the first when it waits, if it is about one
of its games and can be read. What a listener has been told and is still to be told are the notifications of its
game that were handled since it joined, and nothing where they are not passed on. -/
theorem flagged_iff_lost (h : Reached answer p) :
    (∀ later l n earlier, p.handled = later ++ (l, n) :: earlier →
      n.channel = l.channel ∧ n.seq = l.seq ∧ l.ordinal < p.used l.channel ∧
      ((∀ before, Letter.latest l.channel earlier = some before →
          l.ordinal ≤ before.ordinal + UInt32.size) →
        (n.mismatch = true ↔ ∃ before, Letter.latest l.channel earlier = some before ∧
          ∃ k, p.Lost l.channel k ∧ before.ordinal < k ∧ k < l.ordinal))) ∧
    (p.subscriber.worker = none →
      ∀ c, p.subscriber.last? c = (Letter.latest c p.handled).map Letter.seq) ∧
    (∀ w, p.subscriber.worker = some w → p.bus.Holds w p.transit ∧
      ∀ l letters read, w.Awaits → p.transit = l :: letters → l.channel.game ∈ w.listeners.map Prod.fst →
        Json.parse? l.payload.bytes = some read → ∃ n, p.noted w = (letters, (l, n) :: p.handled)) ∧
    ∀ seat : Seat, (Logged.at? p.listeners seat).isSome →
      Logged.heard p.listeners seat ++ told seat p.due =
        if p.subscriber.suppressed then [] else (notices p.handled seat.game).drop (p.joined seat) := by
  have hkept := h.kept
  refine ⟨fun later l n earlier hsplit => ?_, fun hnone c => ?_,
    fun w hw => ⟨hkept.queue w hw, fun l letters read hawaits ht hgame hread => ?_⟩, hkept.share⟩
  · have hfaithful := hkept.faithful
    rw [hsplit] at hfaithful
    obtain ⟨hchannel, hseq, _⟩ := hfaithful.at_entry
    have hmem : (l, n) ∈ p.handled := by
      rw [hsplit]
      exact List.mem_append_right _ List.mem_cons_self
    exact ⟨hchannel, hseq, hkept.ordinal_lt hmem, hkept.flagged_iff hsplit⟩
  · have hc := hkept.tracked c
    simp only [tracker, hnone] at hc
    exact hc
  · obtain ⟨n, _, hnoted⟩ := hkept.exists_noted hw hawaits ht hgame hread
    exact ⟨n, hnoted⟩

/-- The first number waits when the worker stops, the second is published while there is none, and the fourth is
skipped. The third and the fifth wait for the worker. -/
theorem exists_restarted :
    ∃ (p : Post Enquirer Unit) (w : Worker (Logged Enquirer)),
      Reached (fun _ _ rest => ((), rest)) p ∧ p.subscriber.worker = some w ∧ w.Awaits ∧ w.shape = [("a", 1)] ∧
      p.transit = [⟨⟨"a", .attach⟩, 2, .null⟩, ⟨⟨"a", .attach⟩, 4, .null⟩] ∧ p.handled = [] ∧
      p.used ⟨"a", .attach⟩ = 5 ∧ p.subscriber.suppressed = false ∧ p.joined ⟨"a", 0⟩ = 0 := by
  have hstart : Reached (L := Enquirer) (fun _ _ rest => ((), rest)) _ := .start "here" false Bus.fresh_empty ()
  have hlaunched := ((hstart.step (.setEndpoint "here" rfl)).step (.addListener "a" ⟨⟩ rfl)).step (.launch rfl)
  -- Once it has told its listener that it has started, the worker is to stop.
  have hstopped := (((hlaunched.step (.publish ⟨"a", .attach⟩ .null rfl)).step (.work 0 rfl rfl)).step
    .signalStop).step (.work 0 rfl rfl)
  have hrelaunched := (((hstopped.step (.collect rfl rfl rfl)).step (.publish ⟨"a", .attach⟩ .null rfl)).step
    (.launch rfl)).step (.work 0 rfl rfl)
  have hsent := ((hrelaunched.step (.publish ⟨"a", .attach⟩ .null rfl)).step (.skip ⟨"a", .attach⟩ 1)).step
    (.publish ⟨"a", .attach⟩ .null rfl)
  refine ⟨_, _, hsent, rfl, ⟨rfl, rfl, rfl⟩, rfl, rfl, rfl, ?_, rfl, rfl⟩
  simp [Function.update]

/-- What became of the three numbers shows in the flags of the two that are handled. -/
theorem flagged_iff_lost_restarted :
    ∃ p : Post Enquirer Unit, Reached (fun _ _ rest => ((), rest)) p ∧
      (∀ k ∈ [0, 1, 3], p.Lost ⟨"a", .attach⟩ k) ∧
      (Logged.heard p.listeners ⟨"a", 0⟩).map (fun n => (n.kind, n.seq, n.mismatch)) =
        [(.attach, 2, false), (.attach, 4, true)] := by
  obtain ⟨p, w, h, hw, hawaits, hshape, htransit, hhandled, hused, hsuppressed, hjoined⟩ := exists_restarted
  have hgames : w.listeners.map Prod.fst = ["a"] := by
    simpa [Worker.shape, Function.comp_def] using congrArg (List.map Prod.fst) hshape
  obtain ⟨w', bus, rest, handled, hreached, hawaits', hshape', hletters⟩ :=
    h.exists_empty (Enquirer.allReturn _) hw hawaits fun l hl => by
      have hnull : Json.parse? Json.null.bytes = some .null := by rfl
      rw [htransit] at hl
      rw [hgames]
      rcases List.mem_cons.mp hl with rfl | hl
      · exact ⟨List.mem_cons_self, _, hnull⟩
      · rw [List.mem_singleton.mp hl]
        exact ⟨List.mem_cons_self, _, hnull⟩
  obtain ⟨n, m, rfl⟩ : ∃ n m, handled =
      [(⟨⟨"a", .attach⟩, 4, .null⟩, n), (⟨⟨"a", .attach⟩, 2, .null⟩, m)] := by
    rw [htransit, hhandled] at hletters
    obtain ⟨⟨_, n⟩, _, rfl, rfl, hrest⟩ := List.map_eq_cons_iff.mp hletters
    obtain ⟨⟨_, m⟩, _, rfl, rfl, hnone⟩ := List.map_eq_cons_iff.mp hrest
    exact ⟨n, m, congrArg _ (congrArg _ (List.map_eq_nil_iff.mp hnone))⟩
  obtain ⟨hall, _, _, hheard⟩ := flagged_iff_lost hreached
  obtain ⟨hn, hseq, _, hflag⟩ := hall [] _ _ _ rfl
  obtain ⟨hm, hseq', _, hflag'⟩ := hall [_] _ _ _ rfl
  have hlost : ∀ k ∈ [0, 1, 3], Post.Lost { p with
      subscriber := { p.subscriber with worker := some w' }, bus, rest, transit := []
      handled := [(⟨⟨"a", .attach⟩, 4, .null⟩, n), (⟨⟨"a", .attach⟩, 2, .null⟩, m)] } ⟨"a", .attach⟩ k := by
    intro k hk
    simp only [List.mem_cons, List.not_mem_nil, or_false] at hk
    refine ⟨by simp only [hused]; omega, ?_⟩
    simp only [List.forall_mem_cons, List.not_mem_nil, false_implies, implies_true, and_true, forall_const]
    omega
  have hfirst : m.mismatch = false := by
    have hnone := hflag' (by rintro _ ⟨⟩)
    simpa [Letter.latest] using hnone
  have hsecond : n.mismatch = true := by
    have hround : 4 ≤ 2 + UInt32.size := by decide
    refine (hflag ?_).mpr ⟨_, rfl, 3, hlost 3 (by simp), Nat.lt_succ_self 2, Nat.lt_succ_self 3⟩
    rintro _ ⟨⟩
    exact hround
  have hseat : (w'.listener? ⟨"a", 0⟩).isSome := by
    rw [Worker.isSome_listener?, Worker.headcount_eq_lookup, hshape', hshape]
    exact Nat.zero_lt_one
  have htold : w'.heard ⟨"a", 0⟩ = [m, n] := by
    have hshare : w'.heard ⟨"a", 0⟩ ++ told ⟨"a", 0⟩ w'.due = _ := hheard ⟨"a", 0⟩ hseat
    have hmgame : m.game = "a" := congrArg Channel.game hm
    have hngame : n.game = "a" := congrArg Channel.game hn
    simpa [Worker.due, hawaits'.2.1, hsuppressed, hjoined, told, notices, hmgame, hngame] using hshare
  have hmkind : m.kind = .attach := congrArg Channel.kind hm
  have hnkind : n.kind = .attach := congrArg Channel.kind hn
  refine ⟨_, hreached, hlost, ?_⟩
  change (w'.heard ⟨"a", 0⟩).map _ = _
  rw [htold, List.map_cons, List.map_cons, hmkind, hnkind, hseq, hseq', hfirst, hsecond]
  rfl

end Post

end ChainFollower
