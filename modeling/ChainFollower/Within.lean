namespace ChainFollower

/-- Runs a call on the part that `get` shows and `set` puts back. -/
def within {σ τ α : Type} (get : σ → τ) (set : τ → σ → σ) (call : τ → α × τ) (s : σ) : α × σ :=
  let (a, t) := call (get s)
  (a, set t s)

end ChainFollower
