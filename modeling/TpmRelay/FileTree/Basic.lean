import TpmRelay.FileTree.Path

set_option autoImplicit false

namespace TpmRelay

abbrev Location := List String

namespace FileTree

inductive Kind where
  | directory
  | file
  -- A socket; without a number nobody listens there any more.
  | socket (listener : Option Nat)
  deriving DecidableEq, Repr

structure Node where
  location : Location
  kind : Kind
  mode : UInt32 := 0o755
  deriving DecidableEq, Repr

def Node.isWritable (node : Node) : Bool :=
  node.mode &&& 0o200 ≠ 0

def Node.isExecutable (node : Node) : Bool :=
  node.kind = .file && node.mode &&& 0o111 ≠ 0

end FileTree

structure FileTree where
  nodes : List FileTree.Node := []
  -- Where the paths start that do not start at the root.
  workingDirectory : Location := ["work"]
  deriving DecidableEq, Repr

namespace FileTree

def nameLimit : Nat := 255

def node? (tree : FileTree) (location : Location) : Option Node :=
  match tree.nodes.find? (·.location = location) with
  | some node => some node
  | none =>
    if location.isPrefixOf tree.workingDirectory then some { location, kind := .directory }
    else none

def onward (location : Location) (name : String) : Location :=
  if name = ".." then location.dropLast else location ++ [name]

def start (tree : FileTree) (path : Path) : Location :=
  if path.rooted then [] else tree.workingDirectory

def enter (tree : FileTree) (location : Location) (name : String) : Except Fault Location :=
  match tree.node? location with
  | none => .error ⟨.notFound, none⟩
  | some node =>
    if node.kind ≠ .directory then .error ⟨.notDirectory, none⟩
    else if name.utf8ByteSize > nameLimit then .error ⟨.invalidName, none⟩
    else .ok (onward location name)

def locate (tree : FileTree) (path : Path) : Except Fault Location :=
  path.names.foldlM tree.enter (tree.start path)

def lookUp (tree : FileTree) (text : String) : Except Fault Node := do
  let path ← Path.parse text
  match tree.node? (← tree.locate path) with
  | none => throw ⟨.notFound, none⟩
  | some node =>
    if path.wantsDirectory ∧ node.kind ≠ .directory then throw ⟨.notDirectory, none⟩
    return node

def find? (tree : FileTree) (text : String) : Option Node :=
  (tree.lookUp text).toOption

def isDirectory (tree : FileTree) (text : String) : Bool :=
  (tree.find? text).any (·.kind = .directory)

def without (tree : FileTree) (location : Location) : FileTree :=
  { tree with nodes := tree.nodes.filter (·.location ≠ location) }

def put (tree : FileTree) (node : Node) : FileTree :=
  { tree with nodes := (tree.without node.location).nodes ++ [node] }

def checkFolder (tree : FileTree) (location : Location) : Except Fault Unit :=
  if (tree.node? location.dropLast).any (·.isWritable) then .ok ()
  else .error ⟨.permissionDenied, none⟩

-- A path that asks for a directory is refused without a look at who may remove what.
def remove (tree : FileTree) (text : String) : Except Fault FileTree := do
  let node ← tree.lookUp text
  if (Path.ofText text).wantsDirectory then throw ⟨.isDirectory, none⟩
  tree.checkFolder node.location
  if node.kind = .directory then throw ⟨.isDirectory, none⟩
  return tree.without node.location

def create (tree : FileTree) (text : String) (kind : Kind) (mode : UInt32) :
    Except Fault (Location × FileTree) := do
  let path ← Path.parse text
  let location ← tree.locate path
  if path.wantsDirectory then throw ⟨.notFound, none⟩
  tree.checkFolder location
  return (location, tree.put { location, kind, mode })

def openFile (tree : FileTree) (text : String) : Except Fault (Location × FileTree) :=
  match tree.lookUp text with
  | .error ⟨.notFound, _⟩ => tree.create text .file 0o644
  | .error fault => .error fault
  | .ok node => match node.kind with
    | .directory => .error ⟨.isDirectory, none⟩
    | .socket _ => .error ⟨.other, none⟩
    | .file =>
      if node.isWritable then .ok (node.location, tree) else .error ⟨.permissionDenied, none⟩

def withFolders (tree : FileTree) (text : String) : FileTree :=
  let path := Path.ofText text
  let step (location : Location) (tree : FileTree) : FileTree :=
    if (tree.node? location).isSome then tree else tree.put { location, kind := .directory }
  let names := if path.wantsDirectory then path.names else path.names.dropLast
  let follow (reached : Location × FileTree) (name : String) : Location × FileTree :=
    (onward reached.1 name, step (onward reached.1 name) reached.2)
  (names.foldl follow (tree.start path, tree)).2

end FileTree

end TpmRelay
