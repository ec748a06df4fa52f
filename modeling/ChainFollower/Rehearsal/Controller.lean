import ChainFollower.Rehearsal.World

namespace ChainFollower

namespace Rehearsal

/-- A single follower, called from outside. -/
structure Controller where
  follower : Follower
  host : Host World
  /-- How many changes of its status have been told. -/
  told : Nat

namespace Controller

/-- A follower of a game on a shelf, which knows nothing yet. -/
def start (player : Player) (initial : Tip) (retry : RetryPolicy) (pruning : Option UInt64)
    (shelf : Shelf) : Controller where
  follower := .start player.id retry pruning
  host := ⟨World.source, World.store shelf, player.game initial⟩
  told := 0

/-- Runs a call to its end; every request is noted with the state published before it. -/
def run (c : Controller) (call : Follower → Follower × Follower.Next) (w : World) :
    Follower.End × Controller × World :=
  let answer (f : Follower) (r : Request) (w : World) : r.Reply × World :=
    c.host.answer r (w.note (some f.watch.last.state) r)
  let ((follower, ended), w) :=
    Follower.run answer World.rest Follower.patience (call c.follower) w
  (ended, { c with follower }, w)

/-- Whether the status has changed since that was last asked. -/
def changed (c : Controller) : Bool × Controller :=
  (c.follower.watch.changes != c.told, { c with told := c.follower.watch.changes })

end Controller

end Rehearsal

end ChainFollower
