import ChainFollower.Proofs.Sync.Reply

namespace ChainFollower

variable {σ : Type} {host : Host σ}

/-- With what the host answers, a call comes from the one point to the other. -/
inductive Host.Leads (host : Host σ) :
    Follower × Follower.Next → σ → Follower × Follower.Next → σ → Prop
  | refl (p : Follower × Follower.Next) (s : σ) : Leads host p s p s
  | asks {f : Follower} {call : Call} {s t : σ} {q : Follower × Follower.Next} :
      Leads host (f.proceed call (host.answer (f.request call) s).1)
        (host.answer (f.request call) s).2 q t →
      Leads host (f, .asks call) s q t

/-- The host comes to the other state by answering. -/
inductive Host.Later (host : Host σ) : σ → σ → Prop
  | refl (s : σ) : Later host s s
  | answered {s t : σ} (r : Request) : Later host (host.answer r s).2 t → Later host s t

/-- A call that is given enough steps has this result. -/
def Host.Ends (host : Host σ) (rest : Duration → σ → σ) (p : Follower × Follower.Next) (s : σ)
    (out : (Follower × Follower.End) × σ) : Prop :=
  ∃ steps, ∀ fuel, steps ≤ fuel → Follower.run (fun _ => host.answer) rest fuel p s = out

theorem Host.Ends.unique {rest : Duration → σ → σ} {p : Follower × Follower.Next} {s : σ}
    {out out' : (Follower × Follower.End) × σ} (h : host.Ends rest p s out)
    (h' : host.Ends rest p s out') : out = out' := by
  obtain ⟨m, hm⟩ := h
  obtain ⟨n, hn⟩ := h'
  rw [← hm (max m n) (Nat.le_max_left m n), hn (max m n) (Nat.le_max_right m n)]

/-- A call goes on after its rest. -/
theorem Host.Ends.rests {rest : Duration → σ → σ} {f : Follower} {d : Duration} {call : Call} {s : σ}
    {out : (Follower × Follower.End) × σ} (h : host.Ends rest (f, .asks call) (rest d s) out) :
    host.Ends rest (f, .rests d call) s out := by
  obtain ⟨steps, hrun⟩ := h
  refine ⟨steps + 1, fun fuel hle => ?_⟩
  obtain ⟨left, rfl⟩ := Nat.exists_eq_add_of_le' hle
  exact hrun (left + steps) (Nat.le_add_left steps left)

namespace Host.Leads

variable {p q r : Follower × Follower.Next} {s t u : σ}

theorem trans (h : host.Leads p s q t) (h' : host.Leads q t r u) : host.Leads p s r u := by
  induction h with
  | refl p s => exact h'
  | asks _ ih => exact .asks (ih h')

theorem later (h : host.Leads p s q t) : host.Later s t := by
  induction h with
  | refl p s => exact .refl s
  | asks _ ih => exact .answered _ ih

theorem of_answer (f : Follower) (call : Call) {reply : (f.request call).Reply}
    (h : host.answer (f.request call) s = (reply, t)) :
    host.Leads (f, .asks call) s (f.proceed call reply) t := by
  refine .asks ?_
  rw [h]
  exact .refl _ _

/-- Along an exchange no call changes how its follower was set up. -/
theorem kin (h : host.Leads p s q t) : p.1.Kin q.1 := by
  induction h with
  | refl p s => exact .refl _
  | asks _ ih => exact (Follower.kin_proceed _ _ _).trans ih

theorem run_eq (h : host.Leads p s q t) (rest : Duration → σ → σ) :
    ∃ steps, ∀ fuel, Follower.run (fun _ => host.answer) rest (steps + fuel) p s =
      Follower.run (fun _ => host.answer) rest fuel q t := by
  induction h with
  | refl p s => exact ⟨0, fun fuel => by rw [Nat.zero_add]⟩
  | asks _ ih =>
    obtain ⟨steps, hrun⟩ := ih
    refine ⟨steps + 1, fun fuel => ?_⟩
    rw [Nat.add_right_comm, ← hrun]
    rfl

theorem ends (h : host.Leads p s q t) {rest : Duration → σ → σ}
    {out : (Follower × Follower.End) × σ} (hq : host.Ends rest q t out) :
    host.Ends rest p s out := by
  obtain ⟨steps, hrun⟩ := h.run_eq rest
  obtain ⟨more, hout⟩ := hq
  refine ⟨steps + more, fun fuel hle => ?_⟩
  obtain ⟨left, rfl⟩ := Nat.exists_eq_add_of_le hle
  rw [Nat.add_assoc, hrun]
  exact hout _ (Nat.le_add_right more left)

theorem ends_returned {f : Follower} {result : Follower.Outcome}
    (h : host.Leads p s (f, .returned result) t) (rest : Duration → σ → σ) :
    host.Ends rest p s ((f, .returned result), t) := by
  refine h.ends ⟨1, fun fuel hle => ?_⟩
  obtain ⟨left, rfl⟩ := Nat.exists_eq_add_of_le' hle
  rfl

theorem ends_halted {f : Follower} {halt : Halt} (h : host.Leads p s (f, .halted halt) t)
    (rest : Duration → σ → σ) : host.Ends rest p s ((f, .halted halt), t) := by
  refine h.ends ⟨1, fun fuel hle => ?_⟩
  obtain ⟨left, rfl⟩ := Nat.exists_eq_add_of_le' hle
  rfl

end Host.Leads

end ChainFollower
