import ChainFollower.Proofs.Sync.Conduct

namespace ChainFollower

namespace Duration

variable {a b d : Duration}

theorem nanos_min : (a.min b).nanos = min a.nanos b.nanos := by
  unfold Duration.min
  split
  · next h => exact (Nat.min_eq_left h).symm
  · next h => exact (Nat.min_eq_right (Nat.le_of_not_le h)).symm

/-- A product that is too long is cut to the longest span, which is beyond every limit. -/
theorem nanos_min_scale (factor : Nat) : ((a.scale factor).min b).nanos =
    min (a.nanos * factor) b.nanos := by
  have hb := b.nanos_lt
  have hscale : (a.scale factor).nanos = min (a.nanos * factor) (UInt64.size * 1_000_000_000 - 1) := rfl
  rw [nanos_min, hscale]
  omega

end Duration

namespace RetryPolicy

variable {p : RetryPolicy} {a b e : Nat}

theorem attempts_pos (p : RetryPolicy) : 0 < p.attempts :=
  Nat.lt_of_lt_of_le Nat.zero_lt_one (Nat.le_max_left _ _)

theorem attempts_lt (p : RetryPolicy) : p.attempts < UInt32.size :=
  Nat.max_lt.mpr ⟨by decide, p.maxAttempts.toNat_lt⟩

theorem pow_lt_size (h : e < 32) : Nat.pow 2 e < UInt32.size :=
  Nat.lt_of_lt_of_eq (Nat.pow_lt_pow_right (by decide : 1 < 2) h) rfl

theorem size_le_pow (h : 32 ≤ e) : UInt32.size ≤ Nat.pow 2 e :=
  Nat.le_trans (Nat.le_of_eq rfl) (Nat.pow_le_pow_right (by decide : 0 < 2) h)

theorem factor_eq (e : Nat) : factor e = min (Nat.pow 2 e) (UInt32.size - 1) := by
  unfold factor
  split
  · next h =>
    have hlt := pow_lt_size h
    omega
  · next h =>
    have hle := size_le_pow (Nat.le_of_not_lt h)
    omega

theorem factor_lt (e : Nat) : factor e < UInt32.size := by
  have hsize : 0 < UInt32.size := by decide
  rw [factor_eq]
  omega

theorem factor_le_factor (h : a ≤ b) : factor a ≤ factor b := by
  have hpow : Nat.pow 2 a ≤ Nat.pow 2 b := Nat.pow_le_pow_right (by decide) h
  rw [factor_eq, factor_eq]
  omega

theorem nanos_backoff (p : RetryPolicy) (a : Nat) : (p.backoff a).nanos =
    min (p.initialBackoff.nanos * factor (a - 1)) p.maxBackoff.nanos :=
  Duration.nanos_min_scale _

theorem nanos_backoff_mono (h : a ≤ b) : (p.backoff a).nanos ≤ (p.backoff b).nanos := by
  have hfactor : factor (a - 1) ≤ factor (b - 1) := factor_le_factor (Nat.sub_le_sub_right h 1)
  have hproduct := Nat.mul_le_mul_left p.initialBackoff.nanos hfactor
  rw [nanos_backoff, nanos_backoff]
  omega

/-- Where the power of two is cut, the limit is reached with what is left of it. -/
theorem nanos_backoff_of_reaches
    (h : p.maxBackoff.nanos ≤ p.initialBackoff.nanos * (UInt32.size - 1)) (hle : 32 ≤ e) :
    min (p.initialBackoff.nanos * (UInt32.size - 1)) p.maxBackoff.nanos =
      min (p.initialBackoff.nanos * Nat.pow 2 e) p.maxBackoff.nanos := by
  have hpow := size_le_pow hle
  have hproduct : p.initialBackoff.nanos * (UInt32.size - 1) ≤ p.initialBackoff.nanos * Nat.pow 2 e :=
    Nat.mul_le_mul_left _ (by omega)
  omega

theorem nanos_backoff_exact (ha : 0 < a) (h : a ≤ 32 ∨
    p.maxBackoff.nanos ≤ p.initialBackoff.nanos * (UInt32.size - 1)) :
    (p.backoff a).nanos = min (p.initialBackoff.nanos * Nat.pow 2 (a - 1)) p.maxBackoff.nanos := by
  rw [nanos_backoff, factor]
  split
  · rfl
  · next hlt =>
    rcases h with h | h
    · omega
    · exact nanos_backoff_of_reaches h (Nat.le_of_not_lt hlt)

/-- The delays of a policy: never shorter than the one before, never longer than the limit, and twice as
long each time up to it. -/
structure Steady (p : RetryPolicy) : Prop where
  factor_lt : ∀ e, factor e < UInt32.size
  mono : ∀ a b, a ≤ b → (p.backoff a).nanos ≤ (p.backoff b).nanos
  le_max : ∀ a, (p.backoff a).nanos ≤ p.maxBackoff.nanos
  exact : ∀ a, 0 < a →
    a ≤ 32 ∨ p.maxBackoff.nanos ≤ p.initialBackoff.nanos * (UInt32.size - 1) →
      (p.backoff a).nanos = min (p.initialBackoff.nanos * Nat.pow 2 (a - 1)) p.maxBackoff.nanos

theorem steady (p : RetryPolicy) : p.Steady where
  factor_lt := RetryPolicy.factor_lt
  mono _ _ := nanos_backoff_mono
  le_max a := by
    rw [nanos_backoff]
    exact Nat.min_le_right _ _
  exact _ := nanos_backoff_exact

/-- The rests after the first `n` attempts. -/
def waits (p : RetryPolicy) (n : Nat) : List Duration := (List.range n).map fun j => p.backoff (j + 1)

theorem waits_succ (p : RetryPolicy) (n : Nat) : p.waits (n + 1) = p.waits n ++ [p.backoff (n + 1)] := by
  simp [waits, List.range_succ]

/-- With the `k`th attempt it is over: all earlier ones have failed, and it is the last one or has not
failed. -/
structure Spends (p : RetryPolicy) (fails : Nat → Prop) (k : Nat) : Prop where
  pos : 0 < k
  le : k ≤ p.attempts
  failed : ∀ j, 0 < j → j < k → fails j
  last : k < p.attempts → ¬fails k

theorem exists_spends_from {fails : Nat → Prop} {left n : Nat} (hpos : 0 < n)
    (hn : n + left = p.attempts) (hfailed : ∀ j, 0 < j → j < n → fails j) :
    ∃ k, p.Spends fails k := by
  induction left generalizing n with
  | zero => exact ⟨n, hpos, Nat.le_of_eq hn, hfailed, fun hlt => by omega⟩
  | succ left ih =>
    by_cases hfails : fails n
    · refine ih (Nat.succ_pos n) (by omega) fun j hj hlt => ?_
      rcases Nat.lt_succ_iff_lt_or_eq.mp hlt with hlt | rfl
      · exact hfailed j hj hlt
      · exact hfails
    · exact ⟨n, hpos, by omega, hfailed, fun _ => hfails⟩

theorem exists_spends (p : RetryPolicy) (fails : Nat → Prop) : ∃ k, p.Spends fails k := by
  have hpos := p.attempts_pos
  exact exists_spends_from Nat.zero_lt_one (Nat.add_sub_cancel' hpos) fun j hj hlt => by omega

end RetryPolicy

/-- The result of a call that has returned. -/
def Progress.result? {C R H : Type} : Progress C R H → Option R
  | .asks _ => none
  | .rests .. => none
  | .returned result => some result
  | .halted _ => none

open Follower (Next Outcome)

/-- A call gets a reply, or rests. -/
inductive Deed
  | asked (f : Follower) (call : Call) (reply : (f.request call).Reply)
  | rested (d : Duration)

namespace Deed

def rest? : Deed → Option Duration
  | .asked .. => none
  | .rested d => some d

/-- An attempt at a walk opens with its first stage, the question for the canonical tip. -/
def opens : Deed → Bool
  | .asked _ call _ => decide (call.stage?.map Prod.snd = some .asking)
  | .rested _ => false

/-- The outcome of the attempt at a walk that is over with this. -/
def outcome? : Deed → Option Outcome
  | .asked f call reply =>
    ((f.trouble? call reply).map Except.error).or (f.proceed call reply).2.result?
  | .rested _ => none

theorem opens_of_stage {f : Follower} {call : Call} {attempt : Nat} {stage : Stage}
    (hs : call.stage? = some (attempt, stage)) (reply : (f.request call).Reply) :
    (asked f call reply).opens = decide (stage = .asking) := by
  simp [opens, hs]

end Deed

/-- With these deeds a call comes from one point to the other. -/
inductive Follower.Comes (p : Follower × Next) : List Deed → Follower × Next → Prop
  | refl : Comes p [] p
  | asked {ds : List Deed} {g : Follower} (call : Call) (reply : (g.request call).Reply) :
      Comes p ds (g, .asks call) → Comes p (ds ++ [.asked g call reply]) (g.proceed call reply)
  | rested {ds : List Deed} {g : Follower} {d : Duration} {call : Call} :
      Comes p ds (g, .rests d call) → Comes p (ds ++ [.rested d]) (g, .asks call)

namespace Follower

variable {f : Follower} {outcomes : Nat → Except ChainError ChainInfo} {n k : Nat}

/-- The question for the network, asked so many times in vain. -/
def unanswered (f : Follower) (outcomes : Nat → Except ChainError ChainInfo) (n : Nat) : List Deed :=
  (List.range n).flatMap fun j =>
    [.asked f (.identify (j + 1)) (outcomes (j + 1)), .rested (f.retry.backoff (j + 1))]

/-- What comes of the last reply. -/
def identified : Except ChainError ChainInfo → Next
  | .ok info => .asks (.begin info.network)
  | .error e => .returned (.error (.chain e))

theorem comes_unanswered (hn : n < f.retry.attempts)
    (hfailed : ∀ j, 0 < j → j ≤ n → ∃ e, outcomes j = .error e) :
    Comes f.initialized (f.unanswered outcomes n) (f, .asks (.identify (n + 1))) := by
  induction n with
  | zero => exact .refl
  | succ n ih =>
    have hbefore := ih (Nat.lt_of_succ_lt hn) fun j hj hle => hfailed j hj (Nat.le_succ_of_le hle)
    obtain ⟨e, he⟩ := hfailed (n + 1) (Nat.succ_pos n) (Nat.le_refl _)
    have hrests : f.proceed (.identify (n + 1)) (outcomes (n + 1)) =
        (f, .rests (f.retry.backoff (n + 1)) (.identify (n + 2))) := by
      simp [proceed, he, RetryPolicy.wait?, hn]
    have hasked := hbefore.asked (.identify (n + 1)) (outcomes (n + 1))
    rw [hrests] at hasked
    have hrested := hasked.rested
    rw [List.append_assoc] at hrested
    simpa [unanswered, List.range_succ] using hrested

theorem comes_identified (h : f.retry.Spends (fun j => ∃ e, outcomes j = .error e) k) :
    Comes f.initialized (f.unanswered outcomes (k - 1) ++ [.asked f (.identify k) (outcomes k)])
      (f, identified (outcomes k)) := by
  obtain ⟨n, rfl⟩ := Nat.exists_eq_add_of_le' h.pos
  have hle := h.le
  have hbefore : Comes f.initialized (f.unanswered outcomes n) (f, .asks (.identify (n + 1))) :=
    comes_unanswered hle fun j hj hjn => h.failed j hj (Nat.lt_succ_of_le hjn)
  have hends : f.proceed (.identify (n + 1)) (outcomes (n + 1)) =
      (f, identified (outcomes (n + 1))) := by
    cases houtcome : outcomes (n + 1) with
    | ok info => rfl
    | error e =>
      have hlast : ¬n + 1 < f.retry.attempts := fun hlt => h.last hlt ⟨e, houtcome⟩
      simp [proceed, identified, RetryPolicy.wait?, hlast]
  rw [← hends]
  exact hbefore.asked (.identify (n + 1)) (outcomes (n + 1))

end Follower

/-- An attempt has failed with an error of the chain. -/
def OfChain (result : Outcome) : Prop := ∃ e, result = .error (.chain e)

/-- The deeds of a walk: the attempts it has made, the rests, and the outcomes. -/
structure Tally (p : RetryPolicy) (ds : List Deed) (tries rests : Nat) (outcomes : List Outcome) :
    Prop where
  tries_eq : ds.countP Deed.opens = tries
  rests_eq : ds.filterMap Deed.rest? = p.waits rests
  outcomes_eq : ds.filterMap Deed.outcome? = outcomes

namespace Tally

variable {p : RetryPolicy} {ds : List Deed} {tries rests : Nat} {outcomes : List Outcome}

theorem rested (h : Tally p ds tries rests outcomes) :
    Tally p (ds ++ [.rested (p.backoff (rests + 1))]) tries (rests + 1) outcomes where
  tries_eq := by
    rw [List.countP_append, h.tries_eq]
    rfl
  rests_eq := by
    rw [List.filterMap_append, h.rests_eq, RetryPolicy.waits_succ]
    rfl
  outcomes_eq := by
    rw [List.filterMap_append, h.outcomes_eq]
    exact List.append_nil outcomes

theorem asked (h : Tally p ds tries rests outcomes) (f : Follower) (call : Call)
    (reply : (f.request call).Reply) :
    Tally p (ds ++ [.asked f call reply])
      (tries + if (Deed.asked f call reply).opens then 1 else 0) rests
      (outcomes ++ (Deed.asked f call reply).outcome?.toList) where
  tries_eq := by
    rw [List.countP_append, h.tries_eq, List.countP_singleton]
  rests_eq := by
    rw [List.filterMap_append, h.rests_eq]
    exact List.append_nil _
  outcomes_eq := by
    rw [List.filterMap_append, h.outcomes_eq]
    cases hout : (Deed.asked f call reply).outcome? with
    | none => simp [hout]
    | some result => simp [hout]

end Tally

/-- A walk in its attempts, when the outcomes so far were all errors of the chain, and at its end. -/
inductive Retrying (p : RetryPolicy) (ds : List Deed) : Follower × Next → Prop
  | asks {g : Follower} {call : Call} (stage : Stage) (outcomes : List Outcome) : g.retry = p →
      call.stage? = some (outcomes.length + 1, stage) → outcomes.length < p.attempts →
      (∀ r ∈ outcomes, OfChain r) →
      Tally p ds (outcomes.length + if stage = .asking then 0 else 1) outcomes.length outcomes →
      Retrying p ds (g, .asks call)
  | rests {g : Follower} (e : ChainError) (outcomes : List Outcome) : g.retry = p →
      outcomes.length + 1 < p.attempts → (∀ r ∈ outcomes, OfChain r) →
      Tally p ds (outcomes.length + 1) outcomes.length (outcomes ++ [.error (.chain e)]) →
      Retrying p ds (g, .rests (p.backoff (outcomes.length + 1)) (.target (outcomes.length + 2)))
  | ends {g : Follower} {out : Outcome} (h : Follower) (result : Outcome) (outcomes : List Outcome) :
      (g, .returned out) = h.concluded (outcomes.length + 1) result →
      outcomes.length < p.attempts → (∀ r ∈ outcomes, OfChain r) →
      (outcomes.length + 1 < p.attempts → ¬OfChain result) →
      Tally p ds (outcomes.length + 1) outcomes.length (outcomes ++ [result]) →
      Retrying p ds (g, .returned out)
  | halts {g : Follower} {halt : Halt} (outcomes : List Outcome) : outcomes.length < p.attempts →
      (∀ r ∈ outcomes, OfChain r) → Tally p ds (outcomes.length + 1) outcomes.length outcomes →
      Retrying p ds (g, .halted halt)

namespace Retrying

variable {p : RetryPolicy} {ds : List Deed} {g : Follower} {call : Call}

/-- An attempt that fails is the last one, or another one follows after a rest. -/
theorem of_failed {outcomes : List Outcome} {e : SyncError} (hretry : g.retry = p)
    (hlt : outcomes.length < p.attempts) (hall : ∀ r ∈ outcomes, OfChain r)
    (htally : Tally p ds (outcomes.length + 1) outcomes.length (outcomes ++ [.error e])) :
    Retrying p ds (g.walkFailed (outcomes.length + 1) e) := by
  have hgiven (hlast : outcomes.length + 1 < p.attempts → ¬OfChain (.error e))
      (hfail : g.walkFailed (outcomes.length + 1) e = (g.fail, .returned (.ok ()))) :
      Retrying p ds (g.walkFailed (outcomes.length + 1) e) := by
    rw [hfail]
    exact .ends g (.error e) outcomes hfail.symm hlt hall hlast htally
  cases e with
  | chain e =>
    by_cases hmore : outcomes.length + 1 < p.attempts
    · have hrests : g.walkFailed (outcomes.length + 1) (.chain e) =
          (g, .rests (p.backoff (outcomes.length + 1)) (.target (outcomes.length + 2))) := by
        simp [Follower.walkFailed, RetryPolicy.wait?, hretry, hmore]
      rw [hrests]
      exact .rests e outcomes hretry hmore hall htally
    · refine hgiven (fun hlt => absurd hlt hmore) ?_
      simp [Follower.walkFailed, RetryPolicy.wait?, hretry, hmore]
  | storage e => exact hgiven (fun _ => by rintro ⟨_, ⟨⟩⟩) rfl
  | notInitialized game => exact hgiven (fun _ => by rintro ⟨_, ⟨⟩⟩) rfl

theorem asked (h : Retrying p ds (g, .asks call)) (reply : (g.request call).Reply) :
    Retrying p (ds ++ [.asked g call reply]) (g.proceed call reply) := by
  cases h with
  | asks stage outcomes hretry hs hlt hall htally =>
    have hfares := Follower.fares_proceed hs reply
    unfold Follower.Fares at hfares
    have hkin : (g.proceed call reply).1.retry = p := (g.kin_proceed call reply).retry.trans hretry
    have hnext := htally.asked g call reply
    have htries : (outcomes.length + if stage = .asking then 0 else 1) +
        (if (Deed.asked g call reply).opens then 1 else 0) = outcomes.length + 1 := by
      rw [Deed.opens_of_stage hs]
      by_cases hasking : stage = .asking
      · simp [hasking]
      · simp [hasking]
    have hout : (Deed.asked g call reply).outcome? =
      ((g.trouble? call reply).map Except.error).or (g.proceed call reply).2.result? := rfl
    rw [htries, hout] at hnext
    cases htrouble : g.trouble? call reply with
    | some e =>
      rw [htrouble] at hfares hnext
      have hfails : g.proceed call reply = g.walkFailed (outcomes.length + 1) e := hfares
      rw [hfails]
      exact of_failed hretry hlt hall hnext
    | none =>
      rw [htrouble] at hfares hnext
      have hgoes : g.Goes call reply (outcomes.length + 1) (g.proceed call reply) := hfares
      generalize g.proceed call reply = q at hgoes hkin hnext
      cases hgoes with
      | asks hstage hne _ =>
        have hsame : Tally p (ds ++ [.asked g call reply]) (outcomes.length + 1) outcomes.length
            outcomes := by simpa [Progress.result?] using hnext
        exact .asks _ outcomes hkin hstage hlt hall (by rwa [if_neg hne])
      | ends k => exact .ends k (.ok ()) outcomes rfl hlt hall (fun _ => by rintro ⟨_, ⟨⟩⟩) hnext
      | lacks k tip => exact .halts outcomes hlt hall (by simpa [Progress.result?] using hnext)
      | fails _ _ => exact .halts outcomes hlt hall (by simpa [Progress.result?] using hnext)

theorem rested {d : Duration} (h : Retrying p ds (g, .rests d call)) :
    Retrying p (ds ++ [.rested d]) (g, .asks call) := by
  cases h with
  | rests e outcomes hretry hmore hall htally =>
    let failed : List Outcome := outcomes ++ [.error (.chain e)]
    have hlength : failed.length = outcomes.length + 1 := by simp [failed]
    refine .asks .asking failed hretry ?_ ?_ ?_ ?_
    · rw [hlength]
      rfl
    · rw [hlength]
      exact hmore
    · intro r hr
      rcases List.mem_append.mp hr with hr | hr
      · exact hall r hr
      · exact ⟨e, List.mem_singleton.mp hr⟩
    · rw [hlength]
      exact htally.rested

/-- A walk retries from its first question on. -/
theorem of_comes {f : Follower} {q : Follower × Next}
    (h : Follower.Comes (f, .asks (.target 1)) ds q) : Retrying f.retry ds q := by
  induction h with
  | refl =>
    have hnone : Tally f.retry [] 0 0 [] := ⟨rfl, rfl, rfl⟩
    exact .asks .asking [] rfl rfl f.retry.attempts_pos nofun hnone
  | asked call reply _ ih => exact ih.asked reply
  | rested _ ih => exact ih.rested

end Retrying

/-- The `j`th outcome is an error of the chain. -/
def FailsAt (outcomes : List Outcome) (j : Nat) : Prop := ∃ r, outcomes[j - 1]? = some r ∧ OfChain r

theorem spends_of_outcomes {p : RetryPolicy} {outcomes : List Outcome} {result : Outcome}
    (hlt : outcomes.length < p.attempts) (hall : ∀ r ∈ outcomes, OfChain r)
    (hlast : outcomes.length + 1 < p.attempts → ¬OfChain result) :
    p.Spends (FailsAt (outcomes ++ [result])) (outcomes.length + 1) where
  pos := Nat.succ_pos _
  le := hlt
  failed j hpos hj := by
    have hbelow : j - 1 < outcomes.length := by omega
    refine ⟨outcomes[j - 1], ?_, hall _ (List.getElem_mem hbelow)⟩
    rw [List.getElem?_append_left hbelow, List.getElem?_eq_getElem hbelow]
  last hmore := by
    rintro ⟨r, hr, hchain⟩
    have hresult : result = r := by simpa using hr
    exact hlast hmore (hresult ▸ hchain)

/-- Where a walk is in its attempts. -/
theorem Retrying.spec {p : RetryPolicy} {ds : List Deed} {g : Follower} {next : Next}
    (h : Retrying p ds (g, next)) :
    (∃ n < p.attempts, ds.filterMap Deed.rest? = p.waits n ∧ ds.countP Deed.opens ≤ n + 1) ∧
    (next.result? = none → ∀ r ∈ ds.filterMap Deed.outcome?, OfChain r) ∧
    ∀ out, next = .returned out → ∃ k result, ∃ h : Follower,
      p.Spends (FailsAt (ds.filterMap Deed.outcome?)) k ∧ ds.countP Deed.opens = k ∧
      ds.filterMap Deed.rest? = p.waits (k - 1) ∧ (ds.filterMap Deed.outcome?).length = k ∧
      (ds.filterMap Deed.outcome?).getLast? = some result ∧ (g, next) = h.concluded k result := by
  cases h with
  | asks stage outcomes hretry hs hlt hall htally =>
    refine ⟨⟨_, hlt, htally.rests_eq, ?_⟩, fun _ => ?_, nofun⟩
    · rw [htally.tries_eq]
      split
      · omega
      · exact Nat.le_refl _
    · rw [htally.outcomes_eq]
      exact hall
  | rests e outcomes hretry hmore hall htally =>
    refine ⟨⟨_, Nat.lt_of_succ_lt hmore, htally.rests_eq, Nat.le_of_eq htally.tries_eq⟩,
      fun _ => ?_, nofun⟩
    rw [htally.outcomes_eq]
    intro r hr
    rcases List.mem_append.mp hr with hr | hr
    · exact hall r hr
    · exact ⟨e, List.mem_singleton.mp hr⟩
  | ends h result outcomes hend hlt hall hlast htally =>
    refine ⟨⟨_, hlt, htally.rests_eq, Nat.le_of_eq htally.tries_eq⟩, nofun, fun _ _ => ?_⟩
    refine ⟨outcomes.length + 1, result, h, ?_, htally.tries_eq, htally.rests_eq, ?_, ?_, hend⟩
    · rw [htally.outcomes_eq]
      exact spends_of_outcomes hlt hall hlast
    · rw [htally.outcomes_eq]
      simp
    · rw [htally.outcomes_eq]
      simp
  | halts outcomes hlt hall htally =>
    refine ⟨⟨_, hlt, htally.rests_eq, Nat.le_of_eq htally.tries_eq⟩, fun _ => ?_, nofun⟩
    rw [htally.outcomes_eq]
    exact hall

/-- Asked for the network, a chain is asked again until it has answered or the attempts are spent, and a
walk is made again in the same way after each error of the chain, but after no other one. The rests
between are those of the policy, which are exact up to its limit. -/
theorem Follower.retries_on_schedule (f : Follower) (outcomes : Nat → Except ChainError ChainInfo) :
    f.retry.attempts < UInt32.size ∧ f.retry.Steady ∧
    (∃ k, f.retry.Spends (fun j => ∃ e, outcomes j = .error e) k ∧
      Comes f.initialized (f.unanswered outcomes (k - 1) ++ [.asked f (.identify k) (outcomes k)])
        (f, identified (outcomes k))) ∧
    ∀ ds g next, Comes (f, .asks (.target 1)) ds (g, next) →
      (∃ n < f.retry.attempts,
        ds.filterMap Deed.rest? = f.retry.waits n ∧ ds.countP Deed.opens ≤ n + 1) ∧
      (next.result? = none → ∀ r ∈ ds.filterMap Deed.outcome?, OfChain r) ∧
      ∀ out, next = .returned out → ∃ k result, ∃ h : Follower,
        f.retry.Spends (FailsAt (ds.filterMap Deed.outcome?)) k ∧ ds.countP Deed.opens = k ∧
        ds.filterMap Deed.rest? = f.retry.waits (k - 1) ∧
        (ds.filterMap Deed.outcome?).length = k ∧
        (ds.filterMap Deed.outcome?).getLast? = some result ∧ (g, next) = h.concluded k result := by
  obtain ⟨k, hk⟩ := f.retry.exists_spends fun j => ∃ e, outcomes j = .error e
  refine ⟨f.retry.attempts_lt, f.retry.steady, ⟨k, hk, comes_identified hk⟩, ?_⟩
  intro ds g next h
  exact (Retrying.of_comes h).spec

/-- With two attempts, a chain that is down is asked twice. -/
theorem Follower.retries_on_schedule_twice :
    let f : Follower := { Fork.opened with retry := ⟨2, .ofMillis 100, .ofSecs 5⟩ }
    let down : ChainError := .network "down"
    ∃ ds, Comes (f, .asks (.target 1)) ds (f.fail, .returned (.ok ())) ∧
      ds.filterMap Deed.rest? = [.ofMillis 100] ∧
      ds.filterMap Deed.outcome? = [.error (.chain down), .error (.chain down)] ∧
      f.retry.Spends (FailsAt (ds.filterMap Deed.outcome?)) 2 := by
  intro f down
  have hwalk : Comes (f, .asks (.target 1)) [] (f, .asks (.target 1)) := .refl
  have hfirst := hwalk.asked (.target 1) (.error down : Except ChainError ChainInfo)
  have hrested : Comes (f, .asks (.target 1)) _ (f, .asks (.target 2)) := hfirst.rested
  have hsecond := hrested.asked (.target 2) (.error down : Except ChainError ChainInfo)
  obtain ⟨_, _, _, hall⟩ := f.retries_on_schedule fun _ => .error down
  obtain ⟨_, _, hreturns⟩ := hall _ _ _ hsecond
  obtain ⟨k, result, h, hspends, htries, hrests, _⟩ := hreturns (.ok ()) rfl
  obtain rfl : 2 = k := htries
  have hwaits : f.retry.waits 1 = [.ofMillis 100] := by decide
  exact ⟨_, hsecond, hrests.trans hwaits, rfl, hspends⟩

end ChainFollower
