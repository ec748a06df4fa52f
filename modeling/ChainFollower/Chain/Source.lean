import ChainFollower.Block.Document

namespace ChainFollower

/-- The network, and the best block as the chain reports it. -/
structure ChainInfo where
  network : Network
  tip : Tip
  deriving DecidableEq

def ChainInfo.toJson (i : ChainInfo) : Json :=
  .obj [("chain", i.network.toJson), ("tip", i.tip.toJson)]

inductive ChainError
  /-- The chain cannot be reached. -/
  | network (reason : String)
  | unknownBlock (hash : Hash)
  | genesisStays
  /-- The chain ends below `height` on the way to `target`. -/
  | noBlockAt (height : UInt64) (target : Tip)
  /-- The next block has another parent than the local tip. -/
  | notExtending (block tip : Tip)
  | badHeader (requested : Tip) (m : Json.Mismatch)
  | otherBlock (requested got : Tip)

namespace ChainError

def message : ChainError → String
  | network reason => "Network error: " ++ reason
  | unknownBlock hash => "Block not found: " ++ hash.toHex
  | genesisStays => "Invalid block data: cannot detach the genesis block"
  | noBlockAt height target =>
    "Invalid block data: no canonical block at height " ++ toString height
      ++ " while catching up to " ++ target.text
  | notExtending block tip =>
    "Invalid block data: block " ++ block.text ++ " does not extend local tip " ++ tip.text
  | badHeader requested m => "Invalid block data: block " ++ requested.text ++ ": " ++ m.message
  | otherBlock requested got =>
    "Invalid block data: requested block " ++ requested.text ++ ", got " ++ got.text

end ChainError

/-- A question to the chain. Blocks that left the canonical chain must still be served. -/
inductive Query
  | info
  /-- The canonical block at a height; none above the tip. -/
  | hashAt (height : UInt64)
  /-- The payload of a block for one game. -/
  | block (game : String) (hash : Hash)

def Query.Answer : Query → Type
  | .info => Except ChainError ChainInfo
  | .hashAt _ => Except ChainError (Option Hash)
  | .block _ _ => Except ChainError Json

/-- Whatever answers questions; it may change from one to the next. -/
structure Source (σ : Type) where
  answer : (q : Query) → σ → q.Answer × σ

end ChainFollower
