import ChainFollower.Proofs.Sync.Delivery
import ChainFollower.Proofs.Sync.Trail

namespace ChainFollower

namespace Commit

variable {c : Commit} {commits earlier : List Commit}

/-- The greatest height that a step forwards has come to. -/
def peak : List Commit → Nat
  | [] => 0
  | c :: earlier => if c.undo.isSome then max c.tip.height.toNat (peak earlier) else peak earlier

theorem peak_le_cons : peak earlier ≤ peak (c :: earlier) := by
  simp only [peak]
  split
  · exact Nat.le_max_right _ _
  · exact Nat.le_refl _

theorem le_peak (hc : c ∈ commits) (hundo : c.undo.isSome) : c.tip.height.toNat ≤ peak commits := by
  induction commits with
  | nil => cases hc
  | cons d earlier ih =>
    rcases List.mem_cons.mp hc with rfl | hc
    · simp only [peak, if_pos hundo]
      exact Nat.le_max_left _ _
    · exact Nat.le_trans (ih hc) peak_le_cons

end Commit

open Commit (standing summit Stacked peak)

/-- The store does not fail with this reply. -/
def Request.Stored : (r : Request) → r.Reply → Prop
  | .load, reply => ∃ found, reply = .ok found
  | .commit _, reply => reply = .ok ()
  | .undo _, reply => ∃ found, reply = .ok found
  | .prune _, reply => ∃ removed, reply = .ok removed
  | .chain _, _ => True
  | .initial _, _ => True
  | .forward .., _ => True
  | .backward .., _ => True

namespace Holdings

variable {held held' : Holdings} {tip : Tip} {c : Commit} {commits : List Commit}

/-- What a store holds after these commits when it never loses a record. -/
def whole (commits : List Commit) : Holdings := commits.foldr Holdings.commit .empty

theorem record_commit_congr (h : held.record tip = held'.record tip) (c : Commit) :
    (held.commit c).record tip = (held'.commit c).record tip := by
  unfold commit
  cases c.undo with
  | none => exact h
  | some record => simp only [h]

theorem isSome_record_commit (h : (held.record tip).isSome) (c : Commit) :
    ((held.commit c).record tip).isSome := by
  unfold commit
  cases c.undo with
  | none => exact h
  | some record =>
    simp only
    split
    · rfl
    · exact h

theorem isSome_record_whole (hc : c ∈ commits) (hundo : c.undo.isSome) :
    ((whole commits).record c.tip).isSome := by
  induction commits with
  | nil => cases hc
  | cons d earlier ih =>
    rcases List.mem_cons.mp hc with rfl | hc
    · obtain ⟨record, hrecord⟩ := Option.isSome_iff_exists.mp hundo
      simp [whole, commit, hrecord]
    · exact isSome_record_commit (ih hc) d

/-- A store that does not fail commits, prunes, or stays as it is. -/
theorem Answers.effect {r : Request} {reply : r.Reply} (h : held.Answers r reply held')
    (hs : r.Stored reply) :
    (∃ c, r.committed reply = some c ∧ held' = held.commit c) ∨
      r.committed reply = none ∧
        ((∃ below, r = .prune below ∧ held' = held.dropBelow below) ∨ held' = held) := by
  cases r with
  | commit c =>
    cases hs
    exact .inl ⟨c, rfl, h⟩
  | prune below =>
    obtain ⟨removed, rfl⟩ := hs
    exact .inr ⟨rfl, .inl ⟨below, rfl, h⟩⟩
  | load => exact .inr ⟨rfl, .inr h.1⟩
  | undo tip => exact .inr ⟨rfl, .inr h.1⟩
  | chain q => exact .inr ⟨rfl, .inr h⟩
  | initial network => exact .inr ⟨rfl, .inr h⟩
  | forward network state block => exact .inr ⟨rfl, .inr h⟩
  | backward network state block undo => exact .inr ⟨rfl, .inr h⟩

end Holdings

/-- The terms of a follower that keeps the records of `n` blocks below its tip, in a store that does not
fail. -/
structure Terms.Keeps (T : Terms) (n : UInt64) : Prop where
  consistent : T.Consistent
  stored : ∀ r reply, T.replies r reply → r.Stored reply
  pruning : ∀ f, T.starts f → f.pruning = some n

namespace Follower

variable {f : Follower} {n height below : UInt64} {commits : List Commit} {held : Holdings}

theorem pruneBelow?_of_le (hp : f.pruning = some n) (hle : n ≤ height) :
    f.pruneBelow? height = some (height - n) := by
  simp [pruneBelow?, hp, hle]

theorem toNat_of_pruneBelow? (hp : f.pruning = some n) (hb : f.pruneBelow? height = some below) :
    below.toNat + n.toNat = height.toNat := by
  unfold pruneBelow? at hb
  rw [hp] at hb
  simp only at hb
  split at hb
  · next hle =>
    cases hb
    have hle' := UInt64.le_iff_toNat_le.mp hle
    rw [UInt64.toNat_sub_of_le _ _ hle]
    omega
  · cases hb

/-- A call that prunes has just committed a step forwards. -/
theorem Knows.pruned {call : Call} (hk : f.Knows commits held call) (hp : f.pruning = some n)
    (hreq : f.request call = .prune below) :
    ∃ cause c, call = .prune cause c.tip below ∧ commits.head? = some c ∧ c.undo.isSome ∧
      below.toNat + n.toNat = c.tip.height.toNat := by
  cases call with
  | prune cause tip height =>
    cases hreq
    obtain ⟨_, hbelow, c, earlier, rfl, hundo, rfl⟩ := hk
    exact ⟨cause, c, rfl, rfl, hundo, toNat_of_pruneBelow? hp hbelow⟩
  | _ => cases hreq

end Follower

namespace Snapshot

variable {T : Terms} {n : UInt64} {commits : List Commit} {done : Option Commit} {m m' : Snapshot}
  {tip : Tip}

theorem History.pruning_eq (hT : T.Keeps n) (h : History T .empty commits m) :
    m.follower.pruning = some n := by
  induction h with
  | start game retry pruning set => exact hT.pruning _ set
  | turn _ hturn ih =>
    cases hturn with
    | @reply f call held held' reply stored told =>
      exact (Follower.kin_proceed f call reply).pruning.trans ih
    | wake => exact ih
    | initialized => exact ih
    | started => rwa [started_fst]
    | notified note told => rwa [notified_fst]
    | restart game retry pruning set => exact hT.pruning _ set

/-- What a turn does to the store: a commit, the pruning below the window of the step forwards that was
committed last, or nothing. -/
theorem History.effect (hT : T.Keeps n) (h : History T .empty commits m) (hturn : Turn T done m m') :
    (∃ c, done = some c ∧ m'.held = m.held.commit c) ∨
      done = none ∧ ((∃ cause c below, m.next = .asks (.prune cause c.tip below) ∧
        commits.head? = some c ∧ c.undo.isSome ∧ below.toNat + n.toNat = c.tip.height.toNat ∧
        m'.held = m.held.dropBelow below) ∨ m'.held = m.held) := by
  cases hturn with
  | @reply f call held held' reply stored told =>
    rcases stored.effect (hT.stored _ _ told) with
      ⟨c, hc, hheld⟩ | ⟨hnone, ⟨below, hreq, hheld⟩ | hheld⟩
    · exact .inl ⟨c, hc, hheld⟩
    · obtain ⟨cause, c, rfl, hhead, hundo, hbelow⟩ :=
        Follower.Knows.pruned (h.tracked hT.consistent.aligned).2 (h.pruning_eq hT) hreq
      exact .inr ⟨hnone, .inl ⟨cause, c, below, rfl, hhead, hundo, hbelow, hheld⟩⟩
    · exact .inr ⟨hnone, .inr hheld⟩
  | wake => exact .inr ⟨rfl, .inr rfl⟩
  | initialized => exact .inr ⟨rfl, .inr rfl⟩
  | started => exact .inr ⟨rfl, .inr rfl⟩
  | notified note told => exact .inr ⟨rfl, .inr rfl⟩
  | restart game retry pruning set => exact .inr ⟨rfl, .inr rfl⟩

/-- Within the window, nothing is ever lost. -/
theorem History.record_eq (hT : T.Keeps n) (h : History T .empty commits m)
    (htip : peak commits ≤ tip.height.toNat + n.toNat) :
    m.held.record tip = (Holdings.whole commits).record tip := by
  induction h with
  | start game retry pruning set => rfl
  | turn h hturn ih =>
    rcases h.effect hT hturn with
      ⟨c, rfl, hheld⟩ | ⟨rfl, ⟨cause, c, below, _, hhead, hundo, hbelow, hheld⟩ | hheld⟩
    · rw [hheld]
      exact Holdings.record_commit_congr (ih (Nat.le_trans Commit.peak_le_cons htip)) c
    · -- The step that prunes is no higher than the peak, and so its window begins no higher.
      have hwindow : c.tip.height.toNat ≤ tip.height.toNat + n.toNat :=
        Nat.le_trans (Commit.le_peak (List.mem_of_mem_head? hhead) hundo) htip
      have hkept : ¬tip.height < below := by
        rw [UInt64.lt_iff_toNat_lt]
        omega
      rw [hheld]
      exact (if_neg hkept).trans (ih htip)
    · rw [hheld]
      exact ih htip

/-- A record that is lost was pruned after a step forwards, from below the window of that step. -/
theorem History.record_lost (hT : T.Keeps n) (h : History T .empty commits m)
    (hturn : Turn T done m m') (hsome : (m.held.record tip).isSome) :
    (m'.held.record tip).isSome ∨ ∃ cause c below, m.next = .asks (.prune cause c.tip below) ∧
      commits.head? = some c ∧ c.undo.isSome ∧ tip.height.toNat + n.toNat < c.tip.height.toNat := by
  rcases h.effect hT hturn with
    ⟨c, _, hheld⟩ | ⟨_, ⟨cause, c, below, hnext, hhead, hundo, hbelow, hheld⟩ | hheld⟩
  · rw [hheld]
    exact .inl (Holdings.isSome_record_commit hsome c)
  · by_cases hlt : tip.height < below
    · refine .inr ⟨cause, c, below, hnext, hhead, hundo, ?_⟩
      rw [UInt64.lt_iff_toNat_lt] at hlt
      omega
    · have hrec : m'.held.record tip = m.held.record tip := by
        rw [hheld]
        exact if_neg hlt
      exact .inl (hrec ▸ hsome)
  · exact .inl (hheld ▸ hsome)

/-- A step forwards that is committed at a height of `n` or more prunes at once. -/
theorem History.proceed_advance (hT : T.Keeps n) (h : History T .empty commits m) (cause : Cause)
    {header : Header} (step : ForwardStep) (hle : n ≤ header.height) :
    (m.follower.proceed (.advance cause header step) (.ok () : Except StoreError Unit)).2 =
      .asks (.prune cause header.tip (header.height - n)) := by
  have hbelow : (m.follower.setCurrent ⟨header.tip, step.state⟩).pruneBelow? header.height =
      some (header.height - n) := Follower.pruneBelow?_of_le (h.pruning_eq hT) hle
  show (m.follower.advanced cause header step).2 = _
  unfold Follower.advanced
  simp only [hbelow]

/-- Nothing below the window is left after that. -/
theorem History.record_pruned (hT : T.Keeps n) (h : History T .empty commits m) {cause : Cause}
    {top : Tip} {below : UInt64} (hnext : m.next = .asks (.prune cause top below))
    {reply : (Request.prune below).Reply} {held' : Holdings}
    (stored : m.held.Answers (.prune below) reply held') (told : T.replies (.prune below) reply)
    (hlt : tip.height.toNat + n.toNat < top.height.toNat) : held'.record tip = none := by
  have haware := (h.tracked hT.consistent.aligned).2
  unfold Follower.Aware at haware
  rw [hnext] at haware
  have hbelow := Follower.toNat_of_pruneBelow? (h.pruning_eq hT) haware.2.1
  obtain ⟨removed, rfl⟩ := hT.stored _ _ told
  cases stored
  refine if_pos ?_
  rw [UInt64.lt_iff_toNat_lt]
  omega

/-- A standing step within the window has its record. -/
theorem History.record_standing (hT : T.Keeps n) (h : History T .empty commits m) {c : Commit}
    (hc : c ∈ standing commits) (hwindow : peak commits ≤ c.tip.height.toNat + n.toNat) :
    m.held.record c.tip = c.undo := by
  cases (h.tracked hT.consistent.aligned).1 with
  | blank hnil _ =>
    rw [hnil] at hc
    cases hc
  | traced origin htraced =>
    have hundo := htraced.stacked.isSome hc
    have hsome := Holdings.isSome_record_whole (Commit.standing_subset hc) hundo
    obtain ⟨record, hrecord⟩ := Option.isSome_iff_exists.mp hsome
    have hheld := (h.record_eq hT hwindow).trans hrecord
    rw [hheld, htraced.record c hc record hheld]

/-- A call halts for want of a record only where the game started or below the window. -/
theorem History.halted_below (hT : T.Keeps n) (h : History T .empty commits m) {game : String}
    (hnext : m.next = .halted (.noUndoRecord game tip)) :
    commits.getLast?.map Commit.tip = some tip ∨ tip.height.toNat + n.toNat < peak commits := by
  obtain ⟨htracks, haware⟩ := h.tracked hT.consistent.aligned
  unfold Follower.Aware at haware
  rw [hnext] at haware
  obtain ⟨ht, hnone⟩ := haware
  obtain ⟨v, hv, rfl⟩ := Follower.exists_view_of_tip? ht
  obtain ⟨origin, htraced, hsummit⟩ := htracks.exists_summit (h.head_eq hv)
  by_cases hwindow : peak commits ≤ v.current.tip.height.toNat + n.toNat
  · refine .inl ?_
    cases hs : standing commits with
    | nil =>
      rw [hs, Commit.summit_nil] at hsummit
      rw [← hsummit]
      exact htraced.first
    | cons c below =>
      have hc : c ∈ standing commits := by simp [hs]
      rw [hs, Commit.summit_cons] at hsummit
      rw [← hsummit] at hwindow hnone
      have hundo := htraced.stacked.isSome hc
      rw [← h.record_standing hT hc hwindow, hnone] at hundo
      cases hundo
  · exact .inr (by omega)

end Snapshot

variable {R : Rules} {L : Ledger R.initial.tip} {σ : Type}

namespace Snapshot

variable {T : Terms} {commits : List Commit} {done : Option Commit} {m m' : Snapshot}

/-- All commits are fair, and the first one is that of the initial state. -/
theorem History.fair (hT : T.Within R L) (h : History T .empty commits m) :
    (∀ c ∈ commits, R.Fair L c) ∧
      ∀ origin, commits.getLast?.map Commit.tip = some origin → origin = R.initial.tip := by
  induction h with
  | start game retry pruning set => exact ⟨by simp, by simp⟩
  | @turn commits done m m' h hturn ih =>
    cases hturn with
    | @reply f call held held' reply stored told =>
      cases hc : (f.request call).committed reply with
      | none => exact ih
      | some c =>
        have hreq := Request.eq_commit_of_committed hc
        have hfits := (h.reached hT).invariant.coherent.2 call rfl
        refine ⟨?_, ?_⟩
        · intro d hd
          rcases List.mem_cons.mp hd with rfl | hd
          · exact hfits.fair hreq
          · exact ih.1 d hd
        · intro origin horigin
          cases commits with
          | cons d earlier => exact ih.2 origin (by simpa using horigin)
          | nil =>
            -- Without a commit there is no local state, so no block is being undone or applied.
            have hview : f.view = none := by
              cases hv : f.view with
              | none => rfl
              | some v => cases h.head_eq hv
            cases call with
            | create network initial =>
              cases hreq
              obtain ⟨_, rfl⟩ := hfits
              exact (Option.some.inj horigin).symm
            | retreat cause st => simp [Rules.Fits, hview] at hfits
            | advance cause header step => simp [Rules.Fits, hview] at hfits
            | _ => cases hreq
    | _ => exact ih

end Snapshot

/-- The standing steps are over the blocks of the local branch. -/
theorem Commit.Stacked.covers {steps : List Commit} {bs : List Block}
    (hs : Stacked R.initial.tip steps) (hfair : ∀ c ∈ steps, R.Fair L c) (hb : L.Branch bs)
    (htop : (L.top bs).tip = summit R.initial.tip steps) : ∀ b ∈ bs, ∃ c ∈ steps, c.tip = b.tip := by
  induction steps generalizing bs with
  | nil =>
    rw [hb.eq_nil_iff.mpr htop]
    simp
  | cons c rest ih =>
    obtain ⟨⟨undo, hundo⟩, hheight, hrest⟩ := hs
    obtain ⟨_, _, p, _, ha, hp, hrecord⟩ := (hfair c (.head _)).2 _ hundo
    cases bs with
    | nil =>
      have hroot : R.initial.tip = c.tip := L.first_tip.symm.trans htop
      have hrec := (hfair c (.head _)).2 _ hundo
      rw [← hroot] at hrec
      exact absurd hrec Rules.not_recorded_initial
    | cons b below =>
      -- The record names the block and its parent, so block and step have the same one below them.
      have hbc : b.tip = c.tip := htop
      obtain rfl : p = b := ha.holds.eq_of_tip hb.1 (hp.trans hbc.symm)
      have hparent : p.header.parent = (summit R.initial.tip rest).hash :=
        (congrArg UndoRecord.parent hrecord).symm
      have hlast := hb.1.height hb.2.2.holds_top hb.2.1
      have hc : c.tip.height = p.header.height := congrArg Tip.height hbc.symm
      rw [hc] at hheight
      have hbelow : (L.top below).tip = summit R.initial.tip rest := by
        have hh : (L.top below).header.height = (summit R.initial.tip rest).height :=
          UInt64.toNat_inj.mp (by omega)
        have hhash : (L.top below).header.hash = (summit R.initial.tip rest).hash :=
          hb.2.1.symm.trans hparent
        show (⟨(L.top below).header.height, (L.top below).header.hash⟩ : Tip) = _
        rw [hh, hhash]
      intro x hx
      rcases List.mem_cons.mp hx with rfl | hx
      · exact ⟨c, .head _, hbc.symm⟩
      · obtain ⟨d, hd, heq⟩ := ih hrest (fun d hd => hfair d (.tail _ hd)) hb.2.2 hbelow x hx
        exact ⟨d, .tail _ hd, heq⟩

/-- A reorganization that takes back `dropped` and keeps `kept` comes to a good end: notified block by
block, the follower is on the end of whichever branch was attached, and a walk ends on the canonical
tip. -/
structure Setting.Completes (S : Setting R L σ) (f : Follower) (s : σ) (dropped kept : List Block) :
    Prop where
  direct : ∀ (detach attach : Block → Notification) (new : List Block) (rest : Duration → σ → σ),
    (∀ b, (detach b).Detaches b) → (∀ b, (attach b).Attaches b) → f.state = .synced →
    L.Branch (new ++ kept) → (∀ b ∈ new, S.Known (S.now s) b) →
    ∃ g t w, S.host.Delivers rest (dropped.map detach ++ new.reverse.map attach) f s g t ∧
      g.state = .synced ∧ g.view = some w ∧ w.current.tip = (L.top (new ++ kept)).tip
  walk : ∀ (attempt : Nat) (rest : Duration → σ → σ), S.Rests s →
    L.top kept ∈ (S.chain (S.now s)).blocks →
    ∃ g t w, S.host.Ends rest (f, .asks (.target attempt)) s ((g, .returned (.ok ())), t) ∧
      g.state = .synced ∧ g.view = some w ∧ w.current.tip = (S.chain (S.now s)).tip.tip

theorem Setting.Ready.completes {S : Setting R L σ} {f : Follower} {s : σ} {v : View}
    {dropped kept : List Block} (hr : S.Ready f s v (dropped ++ kept))
    (hj : R.Journaled L (S.held s) dropped) : S.Completes f s dropped kept where
  direct := by
    intro detach attach new rest hdetach hattach hstate hb hknown
    obtain ⟨g, t, w, hd, hg, hle, hr₁⟩ := Setting.delivers_undone rest hr hj hstate hdetach
    obtain ⟨g', t', w', hd', hg', _, hr₂⟩ :=
      Setting.delivers_attached rest hr₁ hb (fun b hb => (hknown b hb).mono hle) hg hattach
    exact ⟨g', t', w', hd.append hd', hg', hr₂.view, hr₂.keeps.stands.tip_eq.symm⟩
  walk := by
    intro attempt rest hrests htop
    obtain ⟨g, t, w, cs, hl, hg, hr', htip, _⟩ :=
      Setting.leads_walk_of_rests_append hrests htop attempt hr hj
    exact ⟨g, t, w, hl.ends_returned rest, hg, hr'.view, htip⟩

namespace Snapshot

variable {T : Terms} {n : UInt64} {commits : List Commit} {m : Snapshot}

/-- The blocks of the local branch above a fork within the window have their records. -/
theorem History.journaled (hT : T.Keeps n) (hW : T.Within R L) (h : History T .empty commits m)
    {v : View} (hv : m.follower.view = some v) {dropped kept : List Block}
    (hb : L.Branch (dropped ++ kept)) (htop : (L.top (dropped ++ kept)).tip = v.current.tip)
    (hfork : peak commits ≤ (L.top kept).header.height.toNat + n.toNat + 1) :
    R.Journaled L m.held dropped := by
  refine (h.reached hW).journaled fun b hmem => ?_
  obtain ⟨origin, htraced, hsummit⟩ := (h.tracked hT.consistent.aligned).1.exists_summit (h.head_eq hv)
  obtain ⟨hfair, hfirst⟩ := h.fair hW
  obtain rfl := hfirst origin htraced.first
  have hsteps : ∀ c ∈ standing commits, R.Fair L c := fun c hc => hfair c (Commit.standing_subset hc)
  obtain ⟨c, hc, hcb⟩ := htraced.stacked.covers hsteps hb (htop.trans hsummit.symm) b
    (List.mem_append_left _ hmem)
  have habove := hb.height_lt hmem
  have hwindow : peak commits ≤ c.tip.height.toNat + n.toNat := by
    have hheight : c.tip.height = b.header.height := congrArg Tip.height hcb
    rw [hheight]
    omega
  have hundo := htraced.stacked.isSome hc
  rw [← h.record_standing hT hc hwindow, hcb] at hundo
  exact Option.isSome_iff_exists.mp hundo

/-- With pruning depth `n`, and a greatest height `peak commits` up to now: the blocks of the local branch
from `peak commits - n` on have the records of the steps over them, and so have blocks of any other
branch. Steps forwards prune what is below their own window, and nothing else is ever lost. No call
halts for want of a record unless it goes below the window or below where the game started, and a
reorganization that does not, by notifications or on a walk, comes to a good end. -/
theorem pruning_keeps_window (hT : T.Keeps n) (h : History T .empty commits m) :
    (∀ v, m.follower.view = some v → m.held.current = some v.current) ∧
    (∀ st, m.held.current = some st → ∃ origin,
      commits.getLast?.map Commit.tip = some origin ∧ Stacked origin (standing commits) ∧
      summit origin (standing commits) = st.tip ∧
      ∀ c ∈ standing commits, peak commits ≤ c.tip.height.toNat + n.toNat →
        m.held.record c.tip = c.undo) ∧
    (∀ tip, peak commits ≤ tip.height.toNat + n.toNat →
      m.held.record tip = (Holdings.whole commits).record tip) ∧
    (∀ cause header step, m.next = .asks (.advance cause header step) → n ≤ header.height →
      (m.follower.proceed (.advance cause header step) (.ok () : Except StoreError Unit)).2 =
        .asks (.prune cause header.tip (header.height - n))) ∧
    (∀ cause top below reply held', m.next = .asks (.prune cause top below) →
      m.held.Answers (.prune below) reply held' → T.replies (.prune below) reply →
      ∀ tip : Tip, tip.height.toNat + n.toNat < top.height.toNat → held'.record tip = none) ∧
    (∀ done m', Turn T done m m' → ∀ tip, (m.held.record tip).isSome →
      (m'.held.record tip).isSome ∨ ∃ cause c below, m.next = .asks (.prune cause c.tip below) ∧
        commits.head? = some c ∧ c.undo.isSome ∧
        tip.height.toNat + n.toNat < c.tip.height.toNat) ∧
    (∀ game tip, m.next = .halted (.noUndoRecord game tip) →
      commits.getLast?.map Commit.tip = some tip ∨
        tip.height.toNat + n.toNat < peak commits) ∧
    ∀ (R : Rules) (L : Ledger R.initial.tip) (σ : Type) (S : Setting R L σ) (s : σ) (v : View)
      (dropped kept : List Block) (result : Follower.Outcome), T.Within R L →
      m.next = .returned result → m.held = S.held s → m.follower.view = some v →
      L.Branch (dropped ++ kept) → (L.top (dropped ++ kept)).tip = v.current.tip →
      (∀ b ∈ dropped ++ kept, S.Known (S.now s) b) →
      peak commits ≤ (L.top kept).header.height.toNat + n.toNat + 1 →
      S.Completes m.follower s dropped kept := by
  refine ⟨h.agrees.view, ?_, fun tip => h.record_eq hT, ?_, ?_, ?_, fun game tip => h.halted_below hT,
    ?_⟩
  · intro st hst
    rw [h.current_eq, show Holdings.empty.current = none from rfl, Option.or_none] at hst
    obtain ⟨origin, htraced, hsummit⟩ := (h.tracked hT.consistent.aligned).1.exists_summit hst
    exact ⟨origin, htraced.first, htraced.stacked, hsummit, fun c hc => h.record_standing hT hc⟩
  · intro cause header step _ hle
    exact h.proceed_advance hT cause step hle
  · intro cause top below reply held' hnext stored told tip
    exact h.record_pruned hT hnext stored told
  · intro done m' hturn tip
    exact h.record_lost hT hturn
  · intro R L σ S s v dropped kept result hW hnext hheld hv hb htop hknown hfork
    have hj := h.journaled hT hW hv hb htop hfork
    have hreached := h.reached hW
    have hst := hreached.stands_of_branch hv hb htop
    obtain ⟨f, next, held⟩ := m
    obtain rfl : next = .returned result := hnext
    obtain rfl : held = S.held s := hheld
    exact (hreached.ready hv hst hknown).completes hj

end Snapshot

/-- The terms of a chain of these blocks, a game with these rules, a store that does not fail, and
followers that keep the records of `n` blocks. -/
def Terms.lawful (R : Rules) (L : Ledger R.initial.tip) (n : UInt64) : Terms where
  replies r reply := R.Answers L r reply ∧ r.Stored reply
  notes f note := L.Admits note.payload ∧ ∀ tip, f.tip? = some tip → ∃ b, L.Holds b ∧ b.tip = tip
  starts f := f.game = R.game ∧ f.pruning = some n

theorem Terms.keeps_lawful {n : UInt64} : (Terms.lawful R L n).Keeps n where
  consistent := by
    rintro f note header tip ⟨hadmits, hlocal⟩ _ hheader htip hparent
    obtain ⟨b, hb, rfl⟩ := hlocal tip htip
    exact (hadmits header hheader).height hb hparent
  stored _ _ told := told.2
  pruning _ set := set.2

theorem Terms.within_lawful {n : UInt64} : (Terms.lawful R L n).Within R L where
  replies _ _ told := told.1
  notes _ _ told := told.1
  starts _ set := set.1

namespace Fork

def prunedCommits : List Commit :=
  [.forward leftEnd.tip [0, 0] left.header.hash [], .forward left.tip [0] start.header.hash [],
    .withoutUndo start.tip []]

/-- Only the record of the newest block is kept. -/
def prunedStore : MemoryStore :=
  ((((MemoryStore.empty.commit (.withoutUndo start.tip [])).commit
    (.forward left.tip [0] start.header.hash [])).dropBelow 2).commit
    (.forward leftEnd.tip [0, 0] left.header.hash [])).dropBelow 3

/-- Initialized on the first block of the game, with all records pruned below the tip. -/
def settler : Follower :=
  ((Follower.start "g" .standard (some 0)).settled .regtest rules.initial ⟨start.tip, []⟩).1

theorem history_settler :
    Snapshot.History (.lawful rules ledger 0) .empty [.withoutUndo start.tip []]
      ⟨settler, .asks (.target 1), Holdings.empty.commit (.withoutUndo start.tip [])⟩ := by
  have hstart : Snapshot.History (.lawful rules ledger 0) .empty []
      ⟨.start "g" .standard (some 0), .returned (.ok ()), .empty⟩ := .start _ _ _ ⟨rfl, rfl⟩
  have hidentify := hstart.turn .initialized
  have hbegin := hidentify.reply (.identify 1)
    (.ok ⟨.regtest, start.tip⟩ : Except ChainError ChainInfo) rfl ⟨by rintro _ ⟨⟩; rfl, trivial⟩
  have hresume := hbegin.reply (.begin .regtest)
    (.ok rules.initial : Except GameFailure InitialState) rfl ⟨by rintro _ _ ⟨⟩; rfl, trivial⟩
  have hcreate := hresume.reply (.resume .regtest rules.initial)
    (.ok none : Except StoreError (Option StoredState)) ⟨rfl, by rintro _ ⟨⟩; rfl⟩
    ⟨trivial, _, rfl⟩
  exact hcreate.reply (.create .regtest rules.initial)
    (.ok () : Except StoreError Unit) rfl ⟨trivial, rfl⟩

def leftHeld : Holdings :=
  ((Holdings.empty.commit (.withoutUndo start.tip [])).commit
    (.forward left.tip [0] start.header.hash [])).dropBelow 2

theorem history_left :
    ∃ f, Snapshot.History (.lawful rules ledger 0) .empty
        [.forward left.tip [0] start.header.hash [], .withoutUndo start.tip []]
        ⟨f, .returned (.ok ()), leftHeld⟩ ∧
      f.state = .synced ∧ f.pruning = some 0 ∧
      f.view = some ⟨.regtest, start.tip, ⟨left.tip, [0]⟩⟩ := by
  have hopened := history_settler.reply (.target 1)
    (.ok ⟨.regtest, start.tip⟩ : Except ChainError ChainInfo) rfl ⟨by rintro _ ⟨⟩; rfl, trivial⟩
  have hleft := hopened.turn (.notified ⟨"g", .attach, left.payload, 1, false⟩
    ⟨admits_left, by rintro _ ⟨⟩; exact ⟨start, rfl, rfl⟩⟩)
  have happly := hleft.reply
    (.apply .notified ⟨.regtest, start.tip, ⟨start.tip, []⟩⟩ left.header left.payload)
    (.ok ⟨[0], []⟩ : Except GameFailure ForwardStep) rfl ⟨by rintro _ _ ⟨⟩; rfl, trivial⟩
  have hadvance := happly.reply (.advance .notified left.header ⟨[0], []⟩)
    (.ok () : Except StoreError Unit) rfl ⟨trivial, rfl⟩
  have hprune := hadvance.reply (.prune .notified left.tip 2)
    (.ok 0 : Except StoreError Nat) rfl ⟨trivial, _, rfl⟩
  exact ⟨_, hprune, rfl, rfl, rfl⟩

theorem history_leftEnd :
    ∃ f, Snapshot.History (.lawful rules ledger 0) .empty prunedCommits
        ⟨f, .returned (.ok ()), prunedStore.holdings⟩ ∧
      f.state = .synced ∧ f.view = some ⟨.regtest, start.tip, ⟨leftEnd.tip, [0, 0]⟩⟩ := by
  obtain ⟨⟨game, retry, pruning, state, view, watch⟩, hleft, hstate, hpruning, hview⟩ := history_left
  obtain rfl : state = .synced := hstate
  obtain rfl : pruning = some 0 := hpruning
  obtain rfl : view = some ⟨.regtest, start.tip, ⟨left.tip, [0]⟩⟩ := hview
  have hleftEnd := hleft.turn (.notified ⟨"g", .attach, leftEnd.payload, 2, false⟩
    ⟨Ledger.Holds.admits (b := leftEnd) rfl, by rintro _ ⟨⟩; exact ⟨left, rfl, rfl⟩⟩)
  have happly := hleftEnd.reply
    (.apply .notified ⟨.regtest, start.tip, ⟨left.tip, [0]⟩⟩ leftEnd.header leftEnd.payload)
    (.ok ⟨[0, 0], []⟩ : Except GameFailure ForwardStep) rfl ⟨by rintro _ _ ⟨⟩; rfl, trivial⟩
  have hadvance := happly.reply (.advance .notified leftEnd.header ⟨[0, 0], []⟩)
    (.ok () : Except StoreError Unit) rfl ⟨trivial, rfl⟩
  have hprune := hadvance.reply (.prune .notified leftEnd.tip 3)
    (.ok 1 : Except StoreError Nat) rfl ⟨trivial, _, rfl⟩
  have hheld : prunedStore.holdings = (leftHeld.commit
      (.forward leftEnd.tip [0, 0] left.header.hash [])).dropBelow 3 := by
    simp [prunedStore, leftHeld]
  rw [hheld]
  exact ⟨_, hprune, rfl, rfl⟩

end Fork

namespace Snapshot

/-- The record of `leftEnd` is there and that of `left` is not, so the chain can go back to `left`. -/
theorem pruning_keeps_window_fork :
    let S := Fork.setting (fun k => if k = 0 then Fork.toLeftEnd else Fork.toLeft) id Nat.le_refl
    (S.held (Fork.prunedStore, 1)).record Fork.left.tip = none ∧
    (S.held (Fork.prunedStore, 1)).record Fork.leftEnd.tip = some ⟨Fork.left.header.hash, []⟩ ∧
    ∃ f, f.state = .synced ∧
      S.Completes f (Fork.prunedStore, 1) [Fork.leftEnd] [Fork.left] := by
  intro S
  obtain ⟨f, h, hstate, hv⟩ := Fork.history_leftEnd
  obtain ⟨_, hlocal, _, _, _, _, _, hcompletes⟩ := pruning_keeps_window Terms.keeps_lawful h
  obtain ⟨_, _, _, _, hrecord⟩ := hlocal ⟨Fork.leftEnd.tip, [0, 0]⟩ rfl
  refine ⟨by decide, hrecord _ (.head _) (by decide), f, hstate, ?_⟩
  refine hcompletes Fork.rules Fork.ledger _ S (Fork.prunedStore, 1) _ [Fork.leftEnd] [Fork.left] _
    Terms.within_lawful rfl rfl hv ⟨rfl, rfl, rfl, rfl, trivial⟩ rfl ?_ (by decide)
  intro b hb
  refine ⟨0, Nat.zero_le 1, ?_⟩
  simp only [List.singleton_append, List.mem_cons, List.not_mem_nil, or_false] at hb
  rcases hb with rfl | rfl
  · exact .head _
  · exact .tail _ (.head _)

end Snapshot

end ChainFollower
