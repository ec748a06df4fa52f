import ChainFollower.Store.File
import ChainFollower.Store.Memory

namespace ChainFollower

/-- The place where stores are opened: one file system, and any number of stores in memory. -/
structure Depot where
  files : FileTree
  memory : List MemoryStore

/-- Where a store stands in the depot. -/
inductive Shelf
  | memory (index : Nat)
  | folder (store : FileStore)
  deriving DecidableEq, Repr

namespace Depot

def empty : Depot := ⟨.empty, []⟩

/-- A new store in memory. -/
def allocate (d : Depot) : Shelf × Depot :=
  (.memory d.memory.length, { d with memory := d.memory ++ [.empty] })

/-- The store in the folder at a path, or a new one in memory where no path is given. -/
def openShelf (d : Depot) : Option String → Except StoreError Shelf × Depot
  | none =>
    let (shelf, d) := d.allocate
    (.ok shelf, d)
  | some path =>
    let (store, files) := FileStore.open? path d.files
    (store.map .folder, { d with files })

end Depot

/-- The store on a shelf. -/
def Shelf.store : Shelf → Store Depot
  | .memory index =>
    MemoryStore.store.lift (fun d => d.memory.getD index .empty)
      (fun s d => { d with memory := d.memory.set index s })
  | .folder store => store.store.lift Depot.files fun files d => { d with files }

end ChainFollower
