import TpmRelay.FileTree.Basic
import TpmRelay.Link.Helper

set_option autoImplicit false

namespace TpmRelay.FileTree

def programAt (tree : FileTree) (path : String) : ProgramFile :=
  match tree.find? path with
  | none => .missing
  | some node => if node.isExecutable then .program else .notExecutable

def program (tree : FileTree) (folders : List String) (name : String) : ProgramFile :=
  if name = "" then .missing
  else if name.toList.contains '/' then tree.programAt name
  else
    let found := folders.map fun folder => tree.programAt (Path.join folder name)
    if found.contains .program then .program
    else if found.contains .notExecutable then .notExecutable
    else .missing

end TpmRelay.FileTree
