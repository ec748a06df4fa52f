import ChainFollower.Proofs.Sync.Stages

namespace ChainFollower

namespace Call

/-- How many replies an attempt has had for the next block of its way, at most. -/
def rank : Call → Nat
  | .compare .. => 1
  | .fetchStale .. => 2
  | .lookup .. => 3
  | .revert .. => 4
  | .retreat .. => 5
  | .next .. => 2
  | .fetchNext .. => 3
  | .apply .. => 4
  | .advance .. => 5
  | .prune .. => 1
  | _ => 0

theorem rank_le (call : Call) : call.rank ≤ 5 := by
  cases call <;> simp [rank]

/-- The call belongs to an attempt at a walk to `target`, and is about no block above it. -/
def Toward (attempt : Nat) (target : Tip) : Call → Prop
  | .compare n aim _ => n = attempt ∧ aim = target
  | .fetchStale n aim _ => n = attempt ∧ aim = target
  | .lookup cause .. => cause = .walk attempt target
  | .revert cause .. => cause = .walk attempt target
  | .retreat cause _ => cause = .walk attempt target
  | .next n aim tip => n = attempt ∧ aim = target ∧ tip.height.toNat < target.height.toNat
  | .fetchNext n aim _ requested =>
    n = attempt ∧ aim = target ∧ requested.height.toNat ≤ target.height.toNat
  | .apply cause _ header _ =>
    cause = .walk attempt target ∧ header.height.toNat ≤ target.height.toNat
  | .advance cause header _ =>
    cause = .walk attempt target ∧ header.height.toNat ≤ target.height.toNat
  | .prune cause .. => cause = .walk attempt target
  | _ => False

end Call

namespace Follower

variable {f g : Follower} {call : Call} {reply : (f.request call).Reply} {attempt : Nat}
  {stage : Stage} {target : Tip}

/-- The next call of an attempt keeps to the target, with one more reply for the block that the attempt
is at, or after the commit for it. -/
structure Onward (f : Follower) (call : Call) (reply : (f.request call).Reply) (next : Call) : Prop where
  toward : ∀ attempt target, call.Toward attempt target → next.Toward attempt target
  rank_lt : call.rank + 1 ≤ next.rank + 5 * ((f.request call).committed reply).toList.length

/-- Without an error, an attempt goes on, is over, or halts: for want of a record, or because the game
fails. -/
inductive Goes (f : Follower) (call : Call) (reply : (f.request call).Reply) (attempt : Nat) :
    Follower × Next → Prop
  | asks {g : Follower} {next : Call} {stage : Stage} : next.stage? = some (attempt, stage) →
      stage ≠ .asking → f.Onward call reply next → Goes f call reply attempt (g, .asks next)
  | ends (g : Follower) : Goes f call reply attempt (g.setState .synced, .returned (.ok ()))
  | lacks (g : Follower) (tip : Tip) :
      Goes f call reply attempt (g, .halted (.noUndoRecord f.game tip))
  | fails {g : Follower} {halt : Halt} : halt.Blames f.game → (f.request call).GameFails reply →
      Goes f call reply attempt (g, .halted halt)

/-- An attempt fails with the error that it meets, and otherwise does not. -/
def Fares (f : Follower) (call : Call) (reply : (f.request call).Reply) (attempt : Nat)
    (p : Follower × Next) : Prop :=
  match f.trouble? call reply with
  | some e => p = f.walkFailed attempt e
  | none => f.Goes call reply attempt p

theorem walkFailed_ne_asks (attempt : Nat) (e : SyncError) {next : Call} :
    (f.walkFailed attempt e).2 ≠ .asks next := by
  unfold walkFailed
  split
  · split
    · simp
    · simp
  · simp

theorem Fares.onward {p : Follower × Next} (h : f.Fares call reply attempt p) {next : Call}
    (hnext : p.2 = .asks next) :
    (∃ stage, next.stage? = some (attempt, stage)) ∧ f.Onward call reply next := by
  unfold Fares at h
  split at h
  · rw [h] at hnext
    exact absurd hnext (f.walkFailed_ne_asks attempt _)
  · cases h with
    | asks hs _ honward =>
      cases hnext
      exact ⟨⟨_, hs⟩, honward⟩
    | ends g => cases hnext
    | lacks g tip => cases hnext
    | fails hblames hfails => cases hnext

theorem Fares.halt {p : Follower × Next} (h : f.Fares call reply attempt p) {halt : Halt}
    (hhalt : p.2 = .halted halt) : (∃ tip, halt = .noUndoRecord f.game tip) ∨
      halt.Blames f.game ∧ (f.request call).GameFails reply := by
  unfold Fares at h
  split at h
  · rw [h] at hhalt
    exact absurd hhalt (f.walkFailed_ne_halted attempt _)
  · cases h with
    | asks hs _ honward => cases hhalt
    | ends g => cases hhalt
    | lacks g tip =>
      cases hhalt
      exact .inl ⟨tip, rfl⟩
    | fails hblames hfails =>
      cases hhalt
      exact .inr ⟨hblames, hfails⟩

/-- Told the canonical tip, an attempt compares the local one, unless it is over already. -/
theorem targetKnown_next (f : Follower) (attempt : Nat) (target : Tip) :
    (∃ tip, (f.targetKnown attempt target).2 = .asks (.compare attempt target tip)) ∨
      (∃ e, f.targetKnown attempt target = f.walkFailed attempt e) ∨
      (f.targetKnown attempt target).2 = .returned (.ok ()) := by
  unfold targetKnown
  split
  · exact .inr (.inl ⟨_, rfl⟩)
  · split
    · exact .inr (.inr rfl)
    · split
      · exact .inr (.inr rfl)
      · exact .inl ⟨_, rfl⟩

theorem goes_climb (tip : Tip)
    (htoward : ∀ n aim, call.Toward n aim → n = attempt ∧ aim = target)
    (hrank : call.rank + 1 ≤ 2 + 5 * ((f.request call).committed reply).toList.length) :
    f.Goes call reply attempt (g.climb attempt target tip) := by
  unfold climb
  split
  · exact .ends g
  · next hle =>
    have hlt : tip.height.toNat < target.height.toNat :=
      UInt64.lt_iff_toNat_lt.mp (UInt64.not_le.mp hle)
    refine .asks rfl (by decide) ⟨fun n aim ha => ?_, hrank⟩
    obtain ⟨rfl, rfl⟩ := htoward n aim ha
    exact ⟨rfl, rfl, hlt⟩

theorem Asks.trouble?_eq_none {next : Call} (h : f.Asks call reply next) :
    f.trouble? call reply = none := by
  cases h with
  | compare n info hv => exact unopened?_of_view hv
  | lookup n target hc hv => simp only [trouble?, hc, unopened?_of_view hv]
  | apply n target hc hparent hv => simp only [trouble?, hc, if_pos hparent, unopened?_of_view hv]
  | _ => rfl

/-- A call of an attempt that follows at once is about the same target, and no block above it. -/
theorem Asks.goes {next : Call} (h : f.Asks call reply next)
    (hs : call.stage? = some (attempt, stage)) :
    f.Goes call reply attempt (f, .asks next) := by
  cases h with
  | begin n info => cases hs
  | resume network initial => cases hs
  | create network initial => cases hs
  | compare n info hv =>
    cases hs
    exact .asks rfl (by decide) ⟨fun _ _ ha => ha.elim, Nat.le_refl _⟩
  | lookup n target hc hv =>
    cases hs
    refine .asks rfl (by decide) ⟨fun n aim ha => ?_, Nat.le_refl _⟩
    obtain ⟨rfl, rfl⟩ := ha
    rfl
  | fetchNext n target tip hash =>
    cases hs
    refine .asks rfl (by decide) ⟨fun n aim ha => ?_, Nat.le_refl _⟩
    obtain ⟨hn, rfl, hlt⟩ := ha
    have hheight := Ledger.toNat_succ_of_lt (UInt64.lt_iff_toNat_lt.mpr hlt)
    exact ⟨hn, rfl, by show (tip.height + 1).toNat ≤ _; omega⟩
  | @apply n target tip requested block header v hc hparent hv =>
    cases hs
    have hheight : header.height = requested.height :=
      congrArg Tip.height (checkBlock_eq_ok hc).2
    refine .asks rfl (by decide) ⟨fun n aim ha => ?_, Nat.le_refl _⟩
    obtain ⟨rfl, rfl, hle⟩ := ha
    exact ⟨rfl, hheight ▸ hle⟩
  | revert cause view block record =>
    obtain ⟨target, rfl, rfl⟩ := Cause.exists_walk hs
    exact .asks rfl (by decide) ⟨fun _ _ ha => ha, Nat.le_refl _⟩
  | retreat cause view block record state =>
    obtain ⟨target, rfl, rfl⟩ := Cause.exists_walk hs
    exact .asks rfl (by decide) ⟨fun _ _ ha => ha, Nat.le_refl _⟩
  | advance cause view header block step =>
    obtain ⟨target, rfl, rfl⟩ := Cause.exists_walk hs
    exact .asks rfl (by decide) ⟨fun _ _ ha => ha, Nat.le_refl _⟩

theorem trouble?_of_gameFails (h : (f.request call).GameFails reply) :
    f.trouble? call reply = none := by
  cases call with
  | revert cause view block record => rfl
  | apply cause view header block => rfl
  | _ => exact h.elim

theorem Goes.fares {p : Follower × Next} (h : f.Goes call reply attempt p)
    (ht : f.trouble? call reply = none) : f.Fares call reply attempt p := by
  unfold Fares
  rw [ht]
  exact h

theorem Yields.fares {done : Option Commit} {p : Follower × Next} (h : f.Yields call reply done p)
    (hs : call.stage? = some (attempt, stage)) : f.Fares call reply attempt p := by
  cases h with
  | fails n e hplace ht =>
    cases hplace.symm.trans hs
    unfold Fares
    rw [ht]
  | drops hnone _ => cases hnone.symm.trans hs
  | asks h => exact (h.goes hs).fares h.trouble?_eq_none
  | rests n d e => cases hs
  | aborts e hnone => cases hnone.symm.trans hs
  | declines network e => cases hs
  | breaks network b => cases hs
  | halts hblames hfails => exact (Goes.fails hblames hfails).fares (trouble?_of_gameFails hfails)
  | lacks cause view block => exact (Goes.lacks f _).fares rfl
  | loads network initial stored => cases hs
  | creates network initial => cases hs
  | stands n info hv => exact (Goes.ends f).fares (unopened?_of_view hv)
  | arrives n hle => exact (Goes.ends f).fares rfl
  | catchesUp n hlt =>
    cases hs
    exact Goes.fares (.asks rfl (by decide)
      ⟨fun _ _ ha => ⟨ha.1, ha.2, ha.2 ▸ UInt64.lt_iff_toNat_lt.mp hlt⟩, Nat.le_refl _⟩) rfl
  | reorganizes n target hne =>
    cases hs
    exact Goes.fares (.asks rfl (by decide) ⟨fun _ _ ha => ha, Nat.le_refl _⟩) rfl
  | undoes cause stored =>
    obtain ⟨target, rfl, rfl⟩ := Cause.exists_walk hs
    refine Goes.fares (.asks rfl (by decide) ⟨fun n aim ha => ?_, Nat.le_refl _⟩) rfl
    cases ha
    exact ⟨rfl, rfl⟩
  | prunes cause step hbelow =>
    obtain ⟨target, rfl, rfl⟩ := Cause.exists_walk hs
    exact Goes.fares (.asks rfl (by decide) ⟨fun _ _ ha => ha.1, Nat.le_refl _⟩) rfl
  | applies cause header step =>
    obtain ⟨target, rfl, rfl⟩ := Cause.exists_walk hs
    refine Goes.fares (goes_climb header.tip ?_ (Nat.le_succ _)) rfl
    rintro n aim ⟨⟨⟩, _⟩
    exact ⟨rfl, rfl⟩
  | pruned cause tip below reply =>
    obtain ⟨target, rfl, rfl⟩ := Cause.exists_walk hs
    refine Goes.fares (goes_climb tip (fun n aim ha => ?_) (Nat.le_refl _)) rfl
    cases ha
    exact ⟨rfl, rfl⟩

/-- What becomes of an attempt with any reply. -/
theorem fares_proceed (hs : call.stage? = some (attempt, stage)) (reply : (f.request call).Reply) :
    f.Fares call reply attempt (f.proceed call reply) :=
  (f.yields_proceed call reply).fares hs

end Follower

end ChainFollower
