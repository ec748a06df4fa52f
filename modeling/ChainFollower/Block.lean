import ChainFollower.Hash

namespace ChainFollower

/-- The network a chain belongs to. -/
inductive Network
  | main
  | test
  | regtest
  deriving DecidableEq, Repr

namespace Network

def all : List Network := [main, test, regtest]

def name : Network → String
  | main => "main"
  | test => "test"
  | regtest => "regtest"

instance : ToString Network := ⟨name⟩

def ofName? (s : String) : Option Network := all.find? fun n => n.name == s

/-- The stable number of a network in calls that pass plain data. -/
def code : Network → Int
  | main => 1
  | test => 2
  | regtest => 3

def ofCode? (n : Int) : Option Network := all.find? fun network => network.code == n

end Network

/-- A block as the end of a chain. -/
structure Tip where
  height : UInt64
  hash : Hash
  deriving DecidableEq

namespace Tip

def text (t : Tip) : String := t.hash.toHex ++ "@" ++ toString t.height

instance : ToString Tip := ⟨text⟩

instance : Inhabited Tip := ⟨⟨0, .zero⟩⟩

end Tip

structure Header where
  hash : Hash
  parent : Hash
  height : UInt64
  deriving DecidableEq

/-- One height lower; height zero stays. -/
def lower (height : UInt64) : UInt64 := if height = 0 then 0 else height - 1

namespace Header

def tip (h : Header) : Tip := ⟨h.height, h.hash⟩

/-- The tip that is left when the block is detached. -/
def parentTip (h : Header) : Tip := ⟨lower h.height, h.parent⟩

end Header

/-- A block joins the canonical chain or leaves it. -/
inductive EventKind
  | attach
  | detach
  deriving DecidableEq, Repr

namespace EventKind

def name : EventKind → String
  | attach => "attach"
  | detach => "detach"

instance : ToString EventKind := ⟨name⟩

/-- The name in documents. -/
def title : EventKind → String
  | attach => "Attach"
  | detach => "Detach"

end EventKind

end ChainFollower
