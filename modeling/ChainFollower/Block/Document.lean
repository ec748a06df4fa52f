import ChainFollower.Block
import ChainFollower.Json.Codec

namespace ChainFollower

open Json (Codec)

def Network.codec : Codec Network := Codec.variant (Network.all.map fun n => (n.name, n))

def EventKind.codec : Codec EventKind :=
  Codec.variant ([EventKind.attach, .detach].map fun k => (k.title, k))

def Tip.codec : Codec Tip :=
  let shape : Codec.Shape (Option UInt64 × Option Hash) Tip :=
    { name := "ChainTip"
      empty := (none, none)
      slots := [.of "height" .uint64 Prod.fst (fun s a => (some a, s.2)),
        .of "hash" .hash Prod.snd (fun s a => (s.1, some a))]
      whole := fun (height, hash) => do return ⟨← height, ← hash⟩ }
  shape.codec

def Header.codec : Codec Header :=
  let shape : Codec.Shape (Option Hash × Option Hash × Option UInt64) Header :=
    { name := "BlockHeader"
      empty := (none, none, none)
      slots := [.of "hash" .hash (·.1) (fun s a => (some a, s.2.1, s.2.2)),
        .of "parent" .hash (·.2.1) (fun s a => (s.1, some a, s.2.2)),
        .of "height" .uint64 (·.2.2) (fun s a => (s.1, s.2.1, some a))]
      whole := fun (hash, parent, height) => do return ⟨← hash, ← parent, ← height⟩ }
  shape.codec

/-- The header in a payload. -/
def payloadCodec : Codec Header :=
  let shape : Codec.Shape (Option Header) Header :=
    { name := "PayloadBlock"
      empty := none
      slots := [.of "block" Header.codec id (fun _ a => some a)]
      whole := id }
  shape.codec

def payloadHeader (payload : Json) : Except Json.Mismatch Header := payloadCodec.ofJson payload

def Hash.toJson (h : Hash) : Json := .str h.toHex

def Tip.toJson (t : Tip) : Json :=
  .obj [("height", .ofUInt64 t.height), ("hash", t.hash.toJson)]

def Header.toJson (h : Header) : Json :=
  .obj [("hash", h.hash.toJson), ("parent", h.parent.toJson), ("height", .ofUInt64 h.height)]

def Network.toJson (n : Network) : Json := .str n.name

def EventKind.toJson (k : EventKind) : Json := .str k.title

/-- Bytes as the list of their values. -/
def Bytes.toJson (bytes : Bytes) : Json := .arr (bytes.map fun b => .num (.int b.toNat))

end ChainFollower
