import ChainFollower.Proofs.Sync.History

namespace ChainFollower

/-- The block lies on this tip. -/
structure Header.On (h : Header) (tip : Tip) : Prop where
  parent : h.parent = tip.hash
  height : h.height.toNat = tip.height.toNat + 1

namespace Commit

/-- The steps forwards that have not been taken back, the newest first. -/
def standing : List Commit → List Commit
  | [] => []
  | c :: earlier => if c.undo.isSome then c :: standing earlier else (standing earlier).tail

/-- The end of steps from `origin`. -/
def summit (origin : Tip) (steps : List Commit) : Tip := (steps.head?.map Commit.tip).getD origin

/-- Each step lies on the one below it, and the lowest one on `origin`. -/
def Stacked (origin : Tip) : List Commit → Prop
  | [] => True
  | c :: below =>
    (∃ undo, c.undo = some ⟨(summit origin below).hash, undo⟩) ∧
      c.tip.height.toNat = (summit origin below).height.toNat + 1 ∧ Stacked origin below

variable {origin tip : Tip} {state : Bytes} {commits steps below : List Commit} {c : Commit}

@[simp] theorem standing_withoutUndo :
    standing (withoutUndo tip state :: commits) = (standing commits).tail := rfl

@[simp] theorem summit_nil : summit origin [] = origin := rfl

@[simp] theorem summit_cons : summit origin (c :: below) = c.tip := rfl

theorem standing_subset (h : c ∈ standing commits) : c ∈ commits := by
  induction commits with
  | nil => cases h
  | cons d earlier ih =>
    unfold standing at h
    split at h
    · rcases List.mem_cons.mp h with rfl | h
      · exact .head _
      · exact .tail _ (ih h)
    · exact .tail _ (ih (List.mem_of_mem_tail h))

namespace Stacked

theorem origin_le (h : Stacked origin steps) :
    origin.height.toNat ≤ (summit origin steps).height.toNat := by
  induction steps with
  | nil => exact Nat.le_refl _
  | cons c below ih =>
    have hbelow := ih h.2.2
    have hheight := h.2.1
    rw [summit_cons]
    omega

theorem height_le (h : Stacked origin steps) (hc : c ∈ steps) :
    c.tip.height.toNat ≤ (summit origin steps).height.toNat := by
  induction steps with
  | nil => cases hc
  | cons d below ih =>
    rcases List.mem_cons.mp hc with rfl | hc
    · exact Nat.le_refl _
    · have hbelow := ih h.2.2 hc
      have hheight := h.2.1
      rw [summit_cons]
      omega

theorem isSome (h : Stacked origin steps) (hc : c ∈ steps) : c.undo.isSome := by
  induction steps with
  | nil => cases hc
  | cons d below ih =>
    rcases List.mem_cons.mp hc with rfl | hc
    · obtain ⟨undo, hundo⟩ := h.1
      simp [hundo]
    · exact ih h.2.2 hc

end Stacked

end Commit

open Commit (standing summit Stacked)

/-- A store after a trail from `origin`: what it has recorded of the standing steps is what they were
committed with, and all its records are of blocks above `origin`. -/
structure Traced (origin : Tip) (commits : List Commit) (held : Holdings) : Prop where
  first : commits.getLast?.map Commit.tip = some origin
  tip_eq : commits.head?.map Commit.tip = some (summit origin (standing commits))
  stacked : Stacked origin (standing commits)
  record : ∀ c ∈ standing commits, ∀ record, held.record c.tip = some record → c.undo = some record
  above : ∀ tip record, held.record tip = some record → origin.height.toNat < tip.height.toNat

namespace Traced

variable {origin : Tip} {commits : List Commit} {held held' : Holdings}

theorem start {state : Bytes} (h : ∀ tip, held.record tip = none) :
    Traced origin [.withoutUndo origin state] (held.commit (.withoutUndo origin state)) where
  first := rfl
  tip_eq := rfl
  stacked := trivial
  record c hc := absurd hc List.not_mem_nil
  above := by simp [h]

/-- Records may be lost, and there may be some of blocks that were never the local tip. -/
theorem congr (h : Traced origin commits held)
    (hrec : ∀ tip record, held'.record tip = some record → held.record tip = some record ∨
      (summit origin (standing commits)).height.toNat < tip.height.toNat) :
    Traced origin commits held' := by
  refine { h with record := ?_, above := ?_ }
  · intro c hc record hr
    rcases hrec _ _ hr with hr | hlt
    · exact h.record c hc record hr
    · have hle := h.stacked.height_le hc
      omega
  · intro tip record hr
    rcases hrec _ _ hr with hr | hlt
    · exact h.above tip record hr
    · have hle := h.stacked.origin_le
      omega

theorem first_cons (h : Traced origin commits held) (c : Commit) :
    (c :: commits).getLast?.map Commit.tip = some origin := by
  obtain ⟨d, hd, htip⟩ := Option.map_eq_some_iff.mp h.first
  simp [List.getLast?_cons, hd, htip]

theorem forward {header : Header} {state undo : Bytes} (h : Traced origin commits held)
    (hon : header.On (summit origin (standing commits))) :
    Traced origin (.forward header.tip state header.parent undo :: commits)
      (held.commit (.forward header.tip state header.parent undo)) where
  first := h.first_cons _
  tip_eq := rfl
  stacked := ⟨⟨undo, by rw [← hon.parent]; rfl⟩, hon.height, h.stacked⟩
  record := by
    intro c hc record hr
    rw [Holdings.record_commit_forward] at hr
    rcases List.mem_cons.mp hc with rfl | hc
    · simpa [Commit.forward] using hr
    · -- What stands already is lower than the new block, so the new record is not about it.
      have hle := h.stacked.height_le hc
      have hheight := hon.height
      have hne : c.tip ≠ header.tip := by
        intro heq
        rw [heq] at hle
        have htip : header.tip.height = header.height := rfl
        rw [htip] at hle
        omega
      rw [if_neg hne] at hr
      exact h.record c hc record hr
  above := by
    intro tip record hr
    rw [Holdings.record_commit_forward] at hr
    by_cases heq : tip = header.tip
    · have hle := h.stacked.origin_le
      have hheight := hon.height
      rw [heq]
      show origin.height.toNat < header.height.toNat
      omega
    · rw [if_neg heq] at hr
      exact h.above tip record hr

/-- A commit that fails may have written the record of the new block, which is not the local tip. -/
theorem failed_forward {header : Header} {state undo : Bytes} (h : Traced origin commits held)
    (hon : header.On (summit origin (standing commits)))
    (hrec : ∀ tip, held'.record tip = held.record tip ∨
      held'.record tip = (held.commit (.forward header.tip state header.parent undo)).record tip) :
    Traced origin commits held' := by
  refine h.congr fun tip record hr => ?_
  have hheight := hon.height
  rcases hrec tip with heq | heq
  · exact .inl (heq ▸ hr)
  · rw [heq, Holdings.record_commit_forward] at hr
    by_cases htip : tip = header.tip
    · refine .inr ?_
      rw [htip]
      show _ < header.height.toNat
      omega
    · rw [if_neg htip] at hr
      exact .inl hr

/-- A record tells where the step below ends. -/
theorem backward {state : Bytes} {record : UndoRecord} (h : Traced origin commits held)
    (hrec : held.record (summit origin (standing commits)) = some record) :
    Traced origin
      (.withoutUndo ⟨lower (summit origin (standing commits)).height, record.parent⟩ state :: commits)
      (held.commit
        (.withoutUndo ⟨lower (summit origin (standing commits)).height, record.parent⟩ state)) := by
  have habove := h.above _ _ hrec
  have hstacked := h.stacked
  have hrecord := h.record
  cases hs : standing commits with
  | nil =>
    -- There is no record of `origin` itself.
    rw [hs, Commit.summit_nil] at habove
    omega
  | cons c below =>
    rw [hs, Commit.summit_cons] at hrec
    rw [hs] at hstacked hrecord
    obtain ⟨⟨undo, hundo⟩, hheight, hbelow⟩ := hstacked
    have hparent : record.parent = (summit origin below).hash := by
      have heq := (hrecord c (.head _) record hrec).symm.trans hundo
      rw [Option.some.inj heq]
    have htip : (⟨lower c.tip.height, record.parent⟩ : Tip) = summit origin below := by
      rw [Ledger.lower_eq_of_succ hheight, hparent]
    rw [Commit.summit_cons, htip]
    refine ⟨h.first_cons _, ?_, ?_, ?_, h.above⟩
    · rw [Commit.standing_withoutUndo, hs]
      rfl
    · rw [Commit.standing_withoutUndo, hs]
      exact hbelow
    · rw [Commit.standing_withoutUndo, hs]
      intro d hd r hr
      exact hrecord d (.tail _ hd) r hr

end Traced

/-- A store before and after the first commit. -/
inductive Tracks (commits : List Commit) (held : Holdings) : Prop
  | blank : commits = [] → (∀ tip, held.record tip = none) → Tracks commits held
  | traced (origin : Tip) : Traced origin commits held → Tracks commits held

variable {commits : List Commit} {held held' : Holdings} {f : Follower} {call : Call}
  {reply : (f.request call).Reply}

theorem Tracks.congr (h : Tracks commits held)
    (hrec : ∀ tip record, held'.record tip = some record → held.record tip = some record) :
    Tracks commits held' := by
  cases h with
  | blank hnil hnone =>
    refine .blank hnil fun tip => ?_
    cases hr : held'.record tip with
    | none => rfl
    | some record => exact absurd (hrec tip record hr) (by simp [hnone])
  | traced origin h => exact .traced origin (h.congr fun tip record hr => .inl (hrec tip record hr))

/-- A commit without a record writes none when it fails. -/
theorem Tracks.failed_withoutUndo {tip : Tip} {state : Bytes} (h : Tracks commits held)
    (hrec : ∀ other, held'.record other = held.record other ∨
      held'.record other = (held.commit (.withoutUndo tip state)).record other) :
    Tracks commits held' := by
  refine h.congr fun other record hr => ?_
  rcases hrec other with heq | heq
  · rwa [heq] at hr
  · rwa [heq] at hr

/-- Pruning loses records, whether it fails or not. -/
theorem Tracks.prune {below : UInt64} {reply : Except StoreError Nat} (h : Tracks commits held)
    (stored : held.Answers (.prune below) reply held') : Tracks commits held' := by
  refine h.congr fun tip record hr => ?_
  cases reply with
  | ok n =>
    cases stored
    exact Holdings.record_of_dropBelow hr
  | error e =>
    rcases stored.2 tip with heq | heq
    · exact heq ▸ hr
    · exact Holdings.record_of_dropBelow (heq ▸ hr)

/-- The last commit is at the end of what stands. -/
theorem Tracks.exists_summit {st : StoredState} (h : Tracks commits held)
    (hhead : commits.head?.map Commit.stored = some st) :
    ∃ origin, Traced origin commits held ∧ summit origin (standing commits) = st.tip := by
  obtain ⟨c, hc, rfl⟩ := Option.map_eq_some_iff.mp hhead
  cases h with
  | blank hnil _ =>
    rw [hnil] at hc
    cases hc
  | traced origin h =>
    have htip := h.tip_eq
    rw [hc] at htip
    exact ⟨origin, h, (Option.some.inj htip).symm⟩

/-- A block that is notified as attached to the local tip is one higher. -/
def Terms.Consistent (T : Terms) : Prop :=
  ∀ f note header tip, T.notes f note → note.kind = .attach →
    payloadHeader note.payload = .ok header → f.tip? = some tip → header.parent = tip.hash →
    header.height.toNat = tip.height.toNat + 1

/-- A block that is applied for its notification is one higher than the local tip. -/
def Terms.Aligned (T : Terms) : Prop :=
  ∀ f note view header block, T.notes f note →
    (f.notified note).2 = .asks (.apply .notified view header block) →
    header.height.toNat = view.current.tip.height.toNat + 1

namespace Follower

/-- What a call in progress knows of heights and records. -/
def Knows (f : Follower) (commits : List Commit) (held : Holdings) : Call → Prop
  | .identify _ => True
  | .begin _ => True
  | .resume .. => True
  | .create .. => commits = []
  | .target _ => True
  | .compare _ _ tip => f.tip? = some tip
  | .fetchStale _ _ tip => f.tip? = some tip
  | .next _ target tip => f.tip? = some tip ∧ tip.height < target.height
  | .fetchNext _ _ tip requested =>
    f.tip? = some tip ∧ requested.height.toNat = tip.height.toNat + 1
  | .lookup _ view _ => f.view = some view
  | .revert _ view _ record => f.view = some view ∧ held.record view.current.tip = some record
  | .retreat _ stored => ∃ v record, f.view = some v ∧ held.record v.current.tip = some record ∧
      stored.tip = ⟨lower v.current.tip.height, record.parent⟩
  | .apply _ view header _ => f.view = some view ∧ header.On view.current.tip
  | .advance _ header _ => ∃ v, f.view = some v ∧ header.On v.current.tip
  | .prune _ tip below => f.tip? = some tip ∧ f.pruneBelow? tip.height = some below ∧
      ∃ c earlier, commits = c :: earlier ∧ c.undo.isSome ∧ c.tip = tip

/-- The same about how a call goes on; where it halts for want of a record, there is none. -/
def Aware (commits : List Commit) (held : Holdings) (p : Follower × Next) : Prop :=
  match p.2 with
  | .asks call => p.1.Knows commits held call
  | .rests _ call => p.1.Knows commits held call
  | .halted (.noUndoRecord _ tip) => p.1.tip? = some tip ∧ held.record tip = none
  | _ => True

theorem aware_walkFailed (attempt : Nat) (e : SyncError) :
    Aware commits held (f.walkFailed attempt e) := by
  unfold walkFailed
  split
  · split
    · trivial
    · trivial
  · trivial

theorem aware_climb (attempt : Nat) (target : Tip) {tip : Tip} (ht : f.tip? = some tip) :
    Aware commits held (f.climb attempt target tip) := by
  unfold climb
  split
  · trivial
  · next hlt => exact ⟨ht, UInt64.not_le.mp hlt⟩

theorem aware_retreated (cause : Cause) (stored : StoredState) (hv : f.view.isSome) :
    Aware commits held (f.retreated cause stored) := by
  obtain ⟨v, hv⟩ := Option.isSome_iff_exists.mp hv
  cases cause with
  | notified => trivial
  | walk attempt target => exact tip?_setCurrent hv

theorem aware_applied (cause : Cause) {tip : Tip} (ht : f.tip? = some tip) :
    Aware commits held (f.applied cause tip) := by
  cases cause with
  | notified => trivial
  | walk attempt target => exact aware_climb attempt target ht

/-- What a call knows is known to the one that follows at once. Below the target, the next height is no
more than what a height can be. -/
theorem Knows.asks {next : Call} (h : f.Asks call reply next) (hk : f.Knows commits held call)
    (hcur : held.current = commits.head?.map Commit.stored)
    (stored : held.Answers (f.request call) reply held') : f.Knows commits held' next := by
  cases h with
  | begin attempt info => trivial
  | resume network initial => trivial
  | create network initial =>
    have hnone := (stored.2 none rfl).trans hcur
    exact List.head?_eq_none_iff.mp (Option.map_eq_none_iff.mp hnone.symm)
  | compare attempt info hv => exact tip?_of_view hv
  | lookup attempt target hc hv => exact hv
  | fetchNext attempt target tip hash => exact ⟨hk.1, Ledger.toNat_succ_of_lt hk.2⟩
  | @apply attempt target tip requested block header v hc hparent hv =>
    obtain ⟨ht, hreq⟩ := hk
    obtain rfl : tip = v.current.tip := Option.some.inj (ht.symm.trans (tip?_of_view hv))
    have hheight : header.height = requested.height :=
      congrArg Tip.height (checkBlock_eq_ok hc).2
    exact ⟨hv, hparent, hheight ▸ hreq⟩
  | revert cause view block record =>
    obtain ⟨rfl, hfound⟩ := stored
    exact ⟨hk, (hfound _ rfl).symm⟩
  | retreat cause view block record state =>
    cases stored
    exact ⟨view, record, hk.1, hk.2, rfl⟩
  | advance cause view header block step => exact ⟨view, hk.1, hk.2⟩

theorem Yields.aware {done : Option Commit} {p : Follower × Next} (h : f.Yields call reply done p)
    (hk : f.Knows commits held call) (hcur : held.current = commits.head?.map Commit.stored)
    (stored : held.Answers (f.request call) reply held') :
    Aware (done.toList ++ commits) held' p := by
  cases h with
  | fails attempt e _ _ => exact aware_walkFailed attempt e
  | asks h => exact hk.asks h hcur stored
  | halts hblames _ => cases hblames <;> trivial
  | lacks cause view block =>
    obtain ⟨rfl, hfound⟩ := stored
    exact ⟨tip?_of_view hk, (hfound none rfl).symm⟩
  | catchesUp attempt hlt => exact ⟨alike_setState.tip?.trans hk, hlt⟩
  | reorganizes attempt target hne => exact alike_setState.tip?.trans hk
  | undoes cause st =>
    obtain ⟨v, record, hv, _⟩ := hk
    exact aware_retreated cause st (by rw [hv]; rfl)
  | prunes cause step hbelow =>
    obtain ⟨v, hv, _⟩ := hk
    exact ⟨tip?_setCurrent hv, hbelow, _, _, rfl, rfl, rfl⟩
  | applies cause header step =>
    obtain ⟨v, hv, _⟩ := hk
    exact aware_applied cause (tip?_setCurrent hv)
  | pruned cause tip below reply => exact aware_applied cause hk.1
  | _ => trivial

theorem aware_started : Aware commits held f.started := by
  unfold started
  split
  · trivial
  · trivial

/-- What a follower makes of a notification: nothing, a step, a walk, or it halts. -/
inductive Heeds (f : Follower) (note : Notification) : Next → Prop
  | ignored : Heeds f note (.returned (.ok ()))
  | walks : Heeds f note (.asks (.target 1))
  | applies {view : View} {header : Header} : note.kind = .attach →
      payloadHeader note.payload = .ok header → f.view = some view →
      header.parent = view.current.tip.hash →
      Heeds f note (.asks (.apply .notified view header note.payload))
  | undoes {view : View} : f.view = some view →
      Heeds f note (.asks (.lookup .notified view note.payload))
  | halts (m : Json.Mismatch) : Heeds f note (.halted (.noHeader note.kind note.game m))

theorem heeds_notified (f : Follower) (note : Notification) : f.Heeds note (f.notified note).2 := by
  obtain ⟨m, heq⟩ | heq | ⟨header, v, hheader, hv, hcases⟩ := f.notified_cases note
  · rw [heq]
    exact .halts m
  · rw [heq]
    exact .ignored
  · obtain heq | ⟨hkind, hparent, heq⟩ | ⟨_, heq⟩ := hcases
    · rw [heq]
      exact .walks
    · rw [heq]
      exact .applies hkind hheader hv hparent
    · rw [heq]
      exact .undoes hv

theorem aware_notified {T : Terms} {note : Notification} (hT : T.Aligned)
    (told : T.notes f note) : Aware commits held (f.notified note) := by
  have hheight := hT f note
  have hfst : (f.notified note).1 = f := Snapshot.notified_fst f note
  have hheeds := f.heeds_notified note
  generalize f.notified note = p at hheight hfst hheeds
  obtain ⟨g, next⟩ := p
  obtain rfl : g = f := hfst
  cases hheeds with
  | ignored => trivial
  | walks => trivial
  | applies _ _ hv hparent => exact ⟨hv, hparent, hheight _ _ _ told rfl⟩
  | undoes hv => exact hv
  | halts m => trivial

end Follower

theorem Terms.Consistent.aligned {T : Terms} (hT : T.Consistent) : T.Aligned := by
  intro f note view header block told hnext
  have hheeds := f.heeds_notified note
  rw [hnext] at hheeds
  cases hheeds with
  | applies hkind hheader hv hparent =>
    exact hT f note header _ told hkind hheader (Follower.tip?_of_view hv) hparent

namespace Follower

/-- With each reply of its store, a call leaves its trail. -/
theorem Knows.tracks (hk : f.Knows commits held call) (h : Tracks commits held)
    (hhead : ∀ v, f.view = some v → commits.head?.map Commit.stored = some v.current)
    (stored : held.Answers (f.request call) reply held') :
    Tracks (((f.request call).committed reply).toList ++ commits) held' := by
  cases call with
  | create network initial =>
    cases reply with
    | ok u =>
      cases stored
      obtain rfl : commits = [] := hk
      cases h with
      | blank _ hnone => exact .traced initial.tip (.start hnone)
      | traced origin h => cases h.first
    | error e => exact h.failed_withoutUndo stored.2
  | retreat cause st =>
    obtain ⟨v, record, hv, hrec, htip⟩ := hk
    cases reply with
    | ok u =>
      cases stored
      obtain ⟨origin, htraced, hsummit⟩ := h.exists_summit (hhead v hv)
      rw [← hsummit] at hrec htip
      refine .traced origin ?_
      show Traced origin (.withoutUndo st.tip st.state :: commits)
        (held.commit (.withoutUndo st.tip st.state))
      rw [htip]
      exact htraced.backward hrec
    | error e => exact h.failed_withoutUndo stored.2
  | advance cause header step =>
    obtain ⟨v, hv, hon⟩ := hk
    obtain ⟨origin, htraced, hsummit⟩ := h.exists_summit (hhead v hv)
    rw [← hsummit] at hon
    cases reply with
    | ok u =>
      cases stored
      exact .traced origin (htraced.forward hon)
    | error e => exact .traced origin (htraced.failed_forward hon stored.2)
  | prune cause top below => exact h.prune stored
  | resume network initial => exact stored.1 ▸ h
  | lookup cause view block => exact stored.1 ▸ h
  | _ =>
    cases stored
    exact h

end Follower

namespace Snapshot

variable {T : Terms} {m : Snapshot}

/-- The last commit is the local state. -/
theorem History.head_eq (h : History T .empty commits m) {v : View} (hv : m.follower.view = some v) :
    commits.head?.map Commit.stored = some v.current := by
  have hcur := h.agrees.view v hv
  rw [h.current_eq] at hcur
  simpa [Holdings.empty] using hcur

/-- In every moment the commits are a trail, whatever fails on the way. -/
theorem History.tracked (hT : T.Aligned) (h : History T .empty commits m) :
    Tracks commits m.held ∧ Follower.Aware commits m.held (m.follower, m.next) := by
  induction h with
  | start game retry pruning set => exact ⟨.blank rfl fun tip => rfl, trivial⟩
  | @turn commits done m m' h hturn ih =>
    obtain ⟨htracks, haware⟩ := ih
    cases hturn with
    | reply reply stored told =>
      have hcur := h.current_eq
      rw [show Holdings.empty.current = none from rfl, Option.or_none] at hcur
      exact ⟨haware.tracks htracks (fun v hv => h.head_eq hv) stored,
        (Follower.yields_proceed _ _ reply).aware haware hcur stored⟩
    | wake => exact ⟨htracks, haware⟩
    | initialized => exact ⟨htracks, trivial⟩
    | started => exact ⟨htracks, Follower.aware_started⟩
    | notified n told => exact ⟨htracks, Follower.aware_notified hT told⟩
    | restart game retry pruning set => exact ⟨htracks, trivial⟩

end Snapshot

end ChainFollower
