import ChainFollower.Chain.Source
import ChainFollower.Hash.Sha256

namespace ChainFollower

/-- A mined block and the moves in it, each with the game it belongs to. -/
structure MinedBlock where
  header : Header
  moves : List (String × Json)

/-- A block as a payload: its header, a time a minute a block, and the moves of one game. -/
def MinedBlock.payload (b : MinedBlock) (game : String) : Json :=
  .obj [
    ("block", .obj [
      ("hash", b.header.hash.toJson),
      ("height", .ofUInt64 b.header.height),
      ("parent", b.header.parent.toJson),
      ("timestamp", .ofUInt64 (b.header.height * 60))]),
    ("moves", .arr ((b.moves.filter fun m => m.1 == game).map Prod.snd))]

/-- Blocks are mined on the tip and detached from it; a detached block stays known by its hash. -/
structure SimulatedChain where
  network : Network
  /-- Every block ever mined, the newest first, and the genesis block. -/
  blocks : List MinedBlock
  /-- The canonical blocks above the genesis block, the tip first. -/
  branch : List Header
  nonce : UInt64
  offline : Bool

namespace SimulatedChain

/-- The digest of the parent, the height and a number that no other block has. -/
def blockHash (parent : Hash) (height nonce : UInt64) : Hash :=
  Sha256.digest (parent.bytes ++ Bytes.ofUInt64 height ++ Bytes.ofUInt64 nonce)

def genesis : Header := ⟨blockHash .zero 0 0, .zero, 0⟩

def start (network : Network) : SimulatedChain :=
  { network, blocks := [⟨genesis, []⟩], branch := [], nonce := 1, offline := false }

/-- The canonical blocks, the tip first. -/
def canonical (c : SimulatedChain) : List Header := c.branch ++ [genesis]

def tipHeader (c : SimulatedChain) : Header := c.branch.headD genesis

def tip (c : SimulatedChain) : Tip := c.tipHeader.tip

def hashAt (c : SimulatedChain) (height : UInt64) : Option Hash :=
  if height.toNat ≤ c.branch.length then
    (c.canonical[c.branch.length - height.toNat]?).map Header.hash
  else none

def block? (c : SimulatedChain) (hash : Hash) : Option MinedBlock :=
  c.blocks.find? fun b => b.header.hash = hash

/-- Mines a block on the tip. -/
def attach (c : SimulatedChain) (moves : List (String × Json)) : Header × SimulatedChain :=
  let parent := c.tip
  let height := parent.height + 1
  let header : Header := ⟨blockHash parent.hash height c.nonce, parent.hash, height⟩
  (header,
    { c with
      blocks := ⟨header, moves⟩ :: c.blocks
      branch := header :: c.branch
      nonce := c.nonce + 1 })

/-- Takes the tip off; the genesis block stays. -/
def detach (c : SimulatedChain) : Except ChainError (Header × SimulatedChain) :=
  match c.branch with
  | [] => .error .genesisStays
  | header :: branch => .ok (header, { c with branch })

def setOffline (c : SimulatedChain) (offline : Bool) : SimulatedChain := { c with offline }

def payload (c : SimulatedChain) (game : String) (hash : Hash) : Except ChainError Json :=
  match c.block? hash with
  | some b => .ok (b.payload game)
  | none => .error (.unknownBlock hash)

def unreachable : ChainError := .network "simulated chain is offline"

def answer (c : SimulatedChain) : (q : Query) → q.Answer
  | .info => if c.offline then .error unreachable else .ok ⟨c.network, c.tip⟩
  | .hashAt height => if c.offline then .error unreachable else .ok (c.hashAt height)
  | .block game hash => if c.offline then .error unreachable else c.payload game hash

end SimulatedChain

end ChainFollower
