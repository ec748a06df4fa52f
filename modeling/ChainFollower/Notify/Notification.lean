import ChainFollower.Block
import ChainFollower.Json.Basic

namespace ChainFollower

structure Notification where
  game : String
  kind : EventKind
  payload : Json
  seq : UInt32
  /-- The number does not follow the last one of its channel. -/
  mismatch : Bool

end ChainFollower
