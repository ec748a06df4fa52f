import ChainFollower.Sync.Follower

namespace ChainFollower

namespace Follower

/-- The end of a call. -/
inductive End
  | returned (result : Outcome)
  | halted (h : Halt)
  /-- The call has not ended within its steps. -/
  | unfinished

/-- Answers what a call asks for, lets its rests pass, and returns the follower as the call leaves
it. -/
def run {σ : Type} (answer : Follower → (r : Request) → σ → r.Reply × σ)
    (rest : Duration → σ → σ) : Nat → Follower × Next → σ → (Follower × End) × σ
  | 0, (f, _), s => ((f, .unfinished), s)
  | fuel + 1, (f, next), s =>
    match next with
    | .returned result => ((f, .returned result), s)
    | .halted h => ((f, .halted h), s)
    | .rests d call => run answer rest fuel (f, .asks call) (rest d s)
    | .asks call =>
      let (reply, s) := answer f (f.request call) s
      run answer rest fuel (f.proceed call reply) s

/-- More steps than any call takes. -/
def patience : Nat := UInt64.size / 4

end Follower

end ChainFollower
