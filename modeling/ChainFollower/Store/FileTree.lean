import ChainFollower.Bytes

namespace ChainFollower

namespace FileTree

/-- Names on the way from the root. The root is the empty path. -/
abbrev Path := List String

inductive Node
  | file (content : Bytes)
  | folder
  deriving DecidableEq, Repr

end FileTree

/-- The nodes below the root, each path once. The root is always a folder, and the one that relative paths
begin at. Nothing on the way to a file is a link. -/
structure FileTree where
  nodes : List (FileTree.Path × FileTree.Node)

namespace FileTree

def empty : FileTree := ⟨[]⟩

def node? (t : FileTree) (path : Path) : Option Node :=
  if path.isEmpty then some .folder else t.nodes.lookup path

def isFolder (t : FileTree) (path : Path) : Bool := t.node? path == some .folder

/-- The folder a path lies in. -/
def parent (path : Path) : Path := path.dropLast

def erase (t : FileTree) (path : Path) : FileTree :=
  ⟨t.nodes.filter fun entry => entry.1 != path⟩

def put (t : FileTree) (path : Path) (node : Node) : FileTree :=
  ⟨(path, node) :: (t.erase path).nodes⟩

/-- The content of a file; none for what is absent or a folder. -/
def read? (t : FileTree) (path : Path) : Option Bytes :=
  match t.node? path with
  | some (.file content) => some content
  | _ => none

/-- Writes a file into a folder that exists, over a file of the same path. -/
def write? (t : FileTree) (path : Path) (content : Bytes) : Option FileTree :=
  if path.isEmpty || !t.isFolder (parent path) || t.isFolder path then none
  else some (t.put path (.file content))

/-- Moves a file over another path that is no folder. -/
def rename? (t : FileTree) (source target : Path) : Option FileTree :=
  match t.read? source with
  | none => none
  | some content => (t.erase source).write? target content

/-- Removes a file, but no folder. -/
def remove? (t : FileTree) (path : Path) : Option FileTree :=
  match t.node? path with
  | some (.file _) => some (t.erase path)
  | _ => none

/-- The names in a folder. -/
def list? (t : FileTree) (path : Path) : Option (List String) :=
  if t.isFolder path then
    some (t.nodes.filterMap fun entry =>
      if entry.1.dropLast = path then entry.1.getLast? else none)
  else none

/-- Removes a file, or a folder with everything in it. -/
def eraseAll (t : FileTree) (path : Path) : FileTree :=
  ⟨t.nodes.filter fun entry => !path.isPrefixOf entry.1⟩

/-- The paths below a folder in the order of their texts, folders with a slash behind them. -/
def listing (t : FileTree) (folder : Path) : List String :=
  (t.nodes.filterMap fun (path, node) =>
    if folder.isPrefixOf path && path != folder then
      let name := "/".intercalate (path.drop folder.length)
      some (match node with
        | .folder => name ++ "/"
        | .file _ => name)
    else none).mergeSort fun a b => a ≤ b

/-- The longest name, in bytes. -/
def nameLimit : Nat := 255

/-- The longest text of a path, in bytes. A whole path has at most 4095, of which 16 lead to the folder that
is the root here. -/
def pathLimit : Nat := 4079

/-- One path below another. An absolute one stands for itself. -/
def joinPath (base path : String) : String :=
  if path.startsWith "/" then path
  else if base.isEmpty || base.endsWith "/" then base ++ path
  else base ++ "/" ++ path

/-- What can be a path at all: not too long, and without zero characters. -/
def isPath (path : String) : Bool :=
  path.utf8ByteSize ≤ pathLimit && !path.toList.contains '\x00'

/-- The names of a path between its slashes. -/
def names (path : String) : List String :=
  (path.toList.splitBy fun _ b => b != '/').map fun cs =>
    String.ofList (cs.filter (· != '/'))

/-- Walks names from a folder and makes every folder on the way that is absent; a name of two dots leads
back to the folder above. Where that is not possible, the folders made so far stay. `fresh` says that
there is nothing in the folder. -/
def walk (t : FileTree) (fresh : Bool) (here : Path) : List String → Option Path × FileTree
  | [] => (some here, t)
  | name :: names =>
    if name == "" || name == "." then t.walk fresh here names
    else if name == ".." then t.walk false (parent here) names
    else if nameLimit < name.utf8ByteSize then (none, t)
    else
      let path := here ++ [name]
      match if fresh then none else t.node? path with
      | none => walk ⟨(path, .folder) :: t.nodes⟩ true path names
      | some .folder => t.walk false path names
      | some (.file _) => (none, t)

/-- Makes the folders of a path below a folder. -/
def makeFolders (t : FileTree) (here : Path) (path : String) : Option Path × FileTree :=
  if isPath path then t.walk false here (names path) else (none, t)

/-- Where a path leads from a folder; its last name need not be there. -/
def locate? (t : FileTree) (here : Path) : List String → Option Path
  | [] => some here
  | name :: names =>
    if name == "" || name == "." then t.locate? here names
    else if name == ".." then t.locate? (parent here) names
    else if nameLimit < name.utf8ByteSize then none
    else if names.isEmpty || t.isFolder (here ++ [name]) then t.locate? (here ++ [name]) names
    else none

/-- Where a path leads from a folder. -/
def find? (t : FileTree) (here : Path) (path : String) : Option Path :=
  if isPath path then t.locate? here (names path) else none

end FileTree

end ChainFollower
