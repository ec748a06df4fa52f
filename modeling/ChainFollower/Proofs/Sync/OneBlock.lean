import ChainFollower.Proofs.Sync.Exchange

namespace ChainFollower

variable {σ : Type} {host : Host σ} {rest : Duration → σ → σ}

/-- The call leaves the state of the game as it was, and nothing happens to the host but rests. -/
def Host.Unmoved (host : Host σ) (rest : Duration → σ → σ) (f : Follower)
    (p : Follower × Follower.Next) (s : σ) : Prop :=
  ∃ (g : Follower) (ds : List Duration),
    host.Ends rest p s ((g, .returned (.ok ())), ds.foldl (fun s d => rest d s) s) ∧ g.view = f.view

namespace Follower

variable {f g : Follower}

theorem Kin.pruneBelow? (h : f.Kin g) (height : UInt64) :
    g.pruneBelow? height = f.pruneBelow? height := by
  unfold Follower.pruneBelow?
  rw [h.pruning]

theorem status_fail (hf : f.state ≠ .uninitialized) : f.fail.status = ⟨.catchingUp, f.tip?⟩ := by
  unfold fail
  rw [if_neg hf]
  rfl

end Follower

namespace Host

variable {f g : Follower}

/-- Committing and pruning after a step forwards fails or changes the local state, in the same way for
each cause. -/
theorem exists_advanced (host : Host σ) (f : Follower) (header : Header) (step : ForwardStep) (s : σ) :
    ∃ t, (∃ e, ∀ g cause, f.Alike g → host.Leads (g, .asks (.advance cause header step)) s
        (g.stepFailed cause (.storage e)) t) ∨
      ∀ g cause, f.Alike g → host.Leads (g, .asks (.advance cause header step)) s
        ((g.setCurrent ⟨header.tip, step.state⟩).applied cause header.tip) t := by
  obtain ⟨reply, t₁, hcommit⟩ : ∃ reply t,
      host.answer (.commit (.forward header.tip step.state header.parent step.undo)) s = (reply, t) :=
    ⟨_, _, rfl⟩
  rcases reply with e | u
  · exact ⟨t₁, .inl ⟨e, fun g cause _ => .of_answer g (.advance cause header step) hcommit⟩⟩
  · have hadvance : ∀ g cause, host.Leads (g, .asks (.advance cause header step)) s
        (g.advanced cause header step) t₁ :=
      fun g cause => .of_answer g (.advance cause header step) hcommit
    cases hbelow : f.pruneBelow? header.height with
    | none =>
      refine ⟨t₁, .inr fun g cause hg => ?_⟩
      have hnone : (g.setCurrent ⟨header.tip, step.state⟩).pruneBelow? header.height = none :=
        (hg.toKin.pruneBelow? header.height).trans hbelow
      have heq : g.advanced cause header step =
          (g.setCurrent ⟨header.tip, step.state⟩).applied cause header.tip := by
        simp only [Follower.advanced, hnone]
      exact heq ▸ hadvance g cause
    | some below =>
      obtain ⟨reply, t₂, hprune⟩ : ∃ reply t, host.answer (.prune below) t₁ = (reply, t) :=
        ⟨_, _, rfl⟩
      refine ⟨t₂, .inr fun g cause hg => ?_⟩
      have hsome : (g.setCurrent ⟨header.tip, step.state⟩).pruneBelow? header.height = some below :=
        (hg.toKin.pruneBelow? header.height).trans hbelow
      have heq : g.advanced cause header step =
          (g.setCurrent ⟨header.tip, step.state⟩, .asks (.prune cause header.tip below)) := by
        simp only [Follower.advanced, hsome]
      exact (heq ▸ hadvance g cause).trans (.of_answer _ (.prune cause header.tip below) hprune)

/-- Going forwards over a block halts, fails, or changes the local state. -/
theorem exists_applied (host : Host σ) (f : Follower) (v : View) (header : Header) (payload : Json)
    (s : σ) :
    ∃ t, (∃ halt, ∀ g cause, f.Alike g →
        host.Leads (g, .asks (.apply cause v header payload)) s (g, .halted halt) t) ∨
      (∃ e, ∀ g cause, f.Alike g → host.Leads (g, .asks (.apply cause v header payload)) s
        (g.stepFailed cause (.storage e)) t) ∨
      ∃ state, ∀ g cause, f.Alike g → host.Leads (g, .asks (.apply cause v header payload)) s
        ((g.setCurrent ⟨header.tip, state⟩).applied cause header.tip) t := by
  obtain ⟨reply, t₁, hforward⟩ : ∃ reply t,
      host.answer (.forward v.network v.current.state payload) s = (reply, t) := ⟨_, _, rfl⟩
  rcases reply with (e | b) | step
  · refine ⟨t₁, .inl ⟨.notApplied f.game header.tip e, fun g cause hg => ?_⟩⟩
    rw [← hg.game]
    exact .of_answer g (.apply cause v header payload) hforward
  · exact ⟨t₁, .inl ⟨.breach b, fun g cause _ =>
      .of_answer g (.apply cause v header payload) hforward⟩⟩
  · have happly : ∀ g cause, host.Leads (g, .asks (.apply cause v header payload)) s
        (g, .asks (.advance cause header step)) t₁ :=
      fun g cause => .of_answer g (.apply cause v header payload) hforward
    obtain ⟨t, ⟨e, hl⟩ | hl⟩ := host.exists_advanced f header step t₁
    · exact ⟨t, .inr (.inl ⟨e, fun g cause hg => (happly g cause).trans (hl g cause hg)⟩)⟩
    · exact ⟨t, .inr (.inr ⟨step.state, fun g cause hg => (happly g cause).trans (hl g cause hg)⟩)⟩

/-- Going backwards over the local tip does so, too, and gets to the parent that was recorded. -/
theorem exists_undone (host : Host σ) (f : Follower) (v : View) (payload : Json) (s : σ) :
    ∃ t, (∃ halt, ∀ g cause, f.Alike g →
        host.Leads (g, .asks (.lookup cause v payload)) s (g, .halted halt) t) ∨
      (∃ e, ∀ g cause, f.Alike g → host.Leads (g, .asks (.lookup cause v payload)) s
        (g.stepFailed cause (.storage e)) t) ∨
      ∃ record state, (host.answer (.undo v.current.tip) s).1 = .ok (some record) ∧
        ∀ g cause, f.Alike g → host.Leads (g, .asks (.lookup cause v payload)) s
          (g.retreated cause ⟨⟨lower v.current.tip.height, record.parent⟩, state⟩) t := by
  obtain ⟨reply, t₁, hundo⟩ : ∃ reply t, host.answer (.undo v.current.tip) s = (reply, t) :=
    ⟨_, _, rfl⟩
  rcases reply with e | _ | record
  · exact ⟨t₁, .inr (.inl ⟨e, fun g cause _ => .of_answer g (.lookup cause v payload) hundo⟩)⟩
  · refine ⟨t₁, .inl ⟨.noUndoRecord f.game v.current.tip, fun g cause hg => ?_⟩⟩
    rw [← hg.game]
    exact .of_answer g (.lookup cause v payload) hundo
  · have hlookup : ∀ g cause, host.Leads (g, .asks (.lookup cause v payload)) s
        (g, .asks (.revert cause v payload record)) t₁ :=
      fun g cause => .of_answer g (.lookup cause v payload) hundo
    obtain ⟨reply, t₂, hbackward⟩ : ∃ reply t,
        host.answer (.backward v.network v.current.state payload record.undo) t₁ = (reply, t) :=
      ⟨_, _, rfl⟩
    rcases reply with (e | b) | state
    · refine ⟨t₂, .inl ⟨.notUndone f.game v.current.tip e, fun g cause hg => ?_⟩⟩
      rw [← hg.game]
      exact (hlookup g cause).trans (.of_answer g (.revert cause v payload record) hbackward)
    · exact ⟨t₂, .inl ⟨.breach b, fun g cause _ =>
        (hlookup g cause).trans (.of_answer g (.revert cause v payload record) hbackward)⟩⟩
    · let before : StoredState := ⟨⟨lower v.current.tip.height, record.parent⟩, state⟩
      have hrevert : ∀ g cause, host.Leads (g, .asks (.lookup cause v payload)) s
          (g, .asks (.retreat cause before)) t₂ := fun g cause =>
        (hlookup g cause).trans (.of_answer g (.revert cause v payload record) hbackward)
      obtain ⟨reply, t₃, hcommit⟩ : ∃ reply t,
          host.answer (.commit (.withoutUndo before.tip before.state)) t₂ = (reply, t) := ⟨_, _, rfl⟩
      rcases reply with e | u
      · exact ⟨t₃, .inr (.inl ⟨e, fun g cause _ =>
          (hrevert g cause).trans (.of_answer g (.retreat cause before) hcommit)⟩)⟩
      · exact ⟨t₃, .inr (.inr ⟨record, state, congrArg Prod.fst hundo, fun g cause _ =>
          (hrevert g cause).trans (.of_answer g (.retreat cause before) hcommit)⟩)⟩

/-- A walk that meets an error of the chain before it has moved, in every attempt, moves nothing. -/
theorem unmoved_of_failing
    (hfails : ∀ g attempt s, f.Alike g → ∃ h e, f.Alike h ∧
      host.Leads (g, .asks (.target attempt)) s (h.walkFailed attempt (.chain e)) s)
    (hg : f.Alike g) (attempt : Nat) (s : σ) :
    host.Unmoved rest f (g, .asks (.target attempt)) s := by
  generalize hn : f.retry.attempts - attempt = n
  induction n generalizing g attempt s with
  | zero =>
    obtain ⟨h, e, hh, hl⟩ := hfails g attempt s hg
    have hend : h.walkFailed attempt (.chain e) = (h.fail, .returned (.ok ())) := by
      have hlt : ¬attempt < f.retry.attempts := by omega
      simp [Follower.walkFailed, RetryPolicy.wait?, hh.retry, hlt]
    rw [hend] at hl
    exact ⟨h.fail, [], hl.ends_returned rest, Follower.alike_fail.view.trans hh.view⟩
  | succ n ih =>
    obtain ⟨h, e, hh, hl⟩ := hfails g attempt s hg
    have hend : h.walkFailed attempt (.chain e) =
        (h, .rests (f.retry.backoff attempt) (.target (attempt + 1))) := by
      have hlt : attempt < f.retry.attempts := by omega
      simp [Follower.walkFailed, RetryPolicy.wait?, hh.retry, hlt]
    rw [hend] at hl
    obtain ⟨k, ds, hends, hview⟩ :=
      ih hh (attempt + 1) (rest (f.retry.backoff attempt) s) (by omega)
    exact ⟨k, f.retry.backoff attempt :: ds, hl.ends hends.rests, hview⟩

end Host

end ChainFollower
