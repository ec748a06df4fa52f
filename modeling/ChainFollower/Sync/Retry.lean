import ChainFollower.Json.Basic

namespace ChainFollower

/-- A span of whole nanoseconds below `2 ^ 64` seconds. -/
structure Duration where
  nanos : Nat
  nanos_lt : nanos < UInt64.size * 1_000_000_000
  deriving DecidableEq

namespace Duration

/-- The longest span for anything that would be longer. -/
def saturate (nanos : Nat) : Duration :=
  ⟨min nanos (UInt64.size * 1_000_000_000 - 1), by simp only [UInt64.size]; omega⟩

def zero : Duration := saturate 0

instance : Inhabited Duration := ⟨zero⟩

def ofMillis (ms : UInt64) : Duration := saturate (ms.toNat * 1_000_000)

def ofSecs (secs : UInt64) : Duration := saturate (secs.toNat * 1_000_000_000)

def secs (d : Duration) : Nat := d.nanos / 1_000_000_000

/-- The nanoseconds beyond whole seconds. -/
def subsecs (d : Duration) : Nat := d.nanos % 1_000_000_000

def toJson (d : Duration) : Json := .obj [("secs", .ofNat d.secs), ("nanos", .ofNat d.subsecs)]

def scale (d : Duration) (factor : Nat) : Duration := saturate (d.nanos * factor)

/-- The nanoseconds that a rest of this span lasts. No rest is longer than thirty years. -/
def lasting (d : Duration) : Nat := min d.nanos (30 * 365 * 86400 * 1_000_000_000)

protected def min (a b : Duration) : Duration := if a.nanos ≤ b.nanos then a else b

end Duration

structure RetryPolicy where
  /-- Attempts in all; none counts as one. -/
  maxAttempts : UInt32
  initialBackoff : Duration
  maxBackoff : Duration
  deriving DecidableEq

namespace RetryPolicy

def standard : RetryPolicy := ⟨5, .ofMillis 100, .ofSecs 5⟩

instance : Inhabited RetryPolicy := ⟨standard⟩

def attempts (p : RetryPolicy) : Nat := max 1 p.maxAttempts.toNat

/-- A power of two, and the largest 32-bit number from the thirty-second on. -/
def factor (exponent : Nat) : Nat := if exponent < 32 then Nat.pow 2 exponent else UInt32.size - 1

/-- The wait after a failed attempt, the first of which has number one. -/
def backoff (p : RetryPolicy) (attempt : Nat) : Duration :=
  (p.initialBackoff.scale (factor (attempt - 1))).min p.maxBackoff

/-- The wait after a failed attempt, if another one follows it. -/
def wait? (p : RetryPolicy) (attempt : Nat) : Option Duration :=
  if attempt < p.attempts then some (p.backoff attempt) else none

end RetryPolicy

end ChainFollower
