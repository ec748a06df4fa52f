import ChainFollower.Store.Basic
import ChainFollower.Store.FileTree
import ChainFollower.Text.Decimal

namespace ChainFollower

open FileTree (Path)

/-- A store in a folder: the current state in one file, and every undo record in a file of its own whose name
holds height and hash of its block. A file is written beside its place and moved there; the move of the
current state comes last and makes the commit. -/
structure FileStore where
  base : Path
  /-- The name of the folder in messages. -/
  label : String
  deriving DecidableEq, Repr

/-- One step of a commit. -/
inductive FileOp
  | write (path : Path) (content : Bytes)
  | rename (source target : Path)
  deriving DecidableEq, Repr

namespace FileOp

def run? : FileOp → FileTree → Option FileTree
  | write path content, t => t.write? path content
  | rename source target, t => t.rename? source target

/-- Runs steps up to the first that fails, and says whether none did. -/
def runAll : List FileOp → FileTree → Bool × FileTree
  | [], t => (true, t)
  | op :: ops, t =>
    match op.run? t with
    | some t => runAll ops t
    | none => (false, t)

end FileOp

namespace FileStore

def currentName : String := "current.bin"

def undoFolder : String := "undo"

def undoName (tip : Tip) : String :=
  "undo_" ++ toString tip.height ++ "_" ++ tip.hash.toHex ++ ".bin"

/-- `text` without `front` at its start. -/
def dropFront? (front text : List Char) : Option (List Char) :=
  if front.isPrefixOf text then some (text.drop front.length) else none

/-- `text` without `back` at its end. -/
def dropBack? (back text : List Char) : Option (List Char) :=
  if back.isSuffixOf text then some (text.take (text.length - back.length)) else none

/-- The height in a name of the form `undo_<height>_<hash>.bin`. -/
def undoHeight? (name : String) : Option UInt64 := do
  let rest ← dropFront? "undo_".toList name.toList
  let rest ← dropBack? ".bin".toList rest
  let height := rest.takeWhile (· != '_')
  let hash ← dropFront? ['_'] (rest.drop height.length)
  let _ ← Hash.ofHex? (String.ofList hash)
  Decimal.u64? (String.ofList height)

/-- Whether a path below the folder is short enough. -/
def reaches (s : FileStore) (path : String) : Bool := FileTree.isPath (FileTree.joinPath s.label path)

def currentPath (s : FileStore) : Path := s.base ++ [currentName]

def undoPath (s : FileStore) (tip : Tip) : Path := s.base ++ [undoFolder, undoName tip]

/-- The path beside a file under which it is written first. -/
def beside (path : Path) : Path :=
  path.dropLast ++ [path.getLastD "" ++ ".tmp"]

/-- Writes a file beside its place and moves it there. -/
def replace (path : Path) (content : Bytes) : List FileOp :=
  [.write (beside path) content, .rename (beside path) path]

/-- The steps of a commit: the undo record first, the current state last. -/
def commitOps (s : FileStore) (c : Commit) : List FileOp :=
  (match c.undo with
    | some record => replace (s.undoPath c.tip) record.encode
    | none => []) ++ replace s.currentPath c.stored.encode

/-- The longest path that a commit needs, and the first that it uses. -/
def firstPath (c : Commit) : String :=
  (if c.undo.isSome then undoFolder ++ "/" ++ undoName c.tip else currentName) ++ ".tmp"

def commit (s : FileStore) (c : Commit) (t : FileTree) : Except StoreError Unit × FileTree :=
  if s.reaches (firstPath c) then
    let (whole, t) := FileOp.runAll (s.commitOps c) t
    (if whole then .ok () else .error .io, t)
  else (.error .io, t)

def truncated (s : FileStore) (name : String) : StoreError :=
  .corrupted (s.label ++ "/" ++ name ++ ": io error: unexpected end of file")

/-- The record in a file; none when there is no file, or cannot be one. -/
def readRecord {α : Type} (s : FileStore) (t : FileTree) (path : Path) (name : String)
    (decode? : Bytes → Option α) : Except StoreError (Option α) :=
  match if s.reaches name then t.node? path else none with
  | none => .ok none
  | some .folder => .error .io
  | some (.file content) =>
    match decode? content with
    | some a => .ok (some a)
    | none => .error (s.truncated name)

def load (s : FileStore) (t : FileTree) : Except StoreError (Option StoredState) :=
  s.readRecord t s.currentPath currentName StoredState.decode?

def undo (s : FileStore) (tip : Tip) (t : FileTree) : Except StoreError (Option UndoRecord) :=
  s.readRecord t (s.undoPath tip) (undoFolder ++ "/" ++ undoName tip) UndoRecord.decode?

/-- Everything in the undo folder with a name of a record, by height. -/
def undoEntries (s : FileStore) (t : FileTree) : Except StoreError (List (UInt64 × String)) :=
  match t.list? (s.base ++ [undoFolder]) with
  | none => .error .io
  | some names =>
    .ok ((names.filterMap fun name => (undoHeight? name).map fun height => (height, name)).mergeSort
      fun a b => a.1 ≤ b.1)

/-- Removes records one by one, `count` of which are gone, up to the first that cannot be removed. -/
def removeAll (folder : Path) (count : Nat) :
    List (UInt64 × String) → FileTree → Except StoreError Nat × FileTree
  | [], t => (.ok count, t)
  | (_, name) :: rest, t =>
    match t.remove? (folder ++ [name]) with
    | none => (.error .io, t)
    | some t => removeAll folder (count + 1) rest t

def prune (s : FileStore) (height : UInt64) (t : FileTree) : Except StoreError Nat × FileTree :=
  match s.undoEntries t with
  | .error e => (.error e, t)
  | .ok entries =>
    removeAll (s.base ++ [undoFolder]) 0 (entries.takeWhile fun entry => entry.1 < height) t

def heights (s : FileStore) (t : FileTree) : Except StoreError (List UInt64) :=
  (s.undoEntries t).map fun entries => entries.map Prod.fst

def store (s : FileStore) : Store FileTree where
  load t := (s.load t, t)
  commit c t := s.commit c t
  undo tip t := (s.undo tip t, t)
  prune height t := s.prune height t
  heights t := (s.heights t, t)

/-- Opens the store at a path, making its folders. -/
def open? (path : String) (t : FileTree) : Except StoreError FileStore × FileTree :=
  match t.makeFolders [] (FileTree.joinPath path undoFolder) with
  | (none, t) => (.error .io, t)
  | (some folder, t) => (.ok ⟨FileTree.parent folder, path⟩, t)

end FileStore

end ChainFollower
