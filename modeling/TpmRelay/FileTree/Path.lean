import TpmRelay.Address.Options
import TpmRelay.Fault

set_option autoImplicit false

namespace TpmRelay

structure Path where
  rooted : Bool
  -- Two dots lead to the directory above.
  names : List String
  -- Whether nothing but a directory will do.
  wantsDirectory : Bool
  deriving DecidableEq, Repr

namespace Path

def limit : Nat := 4096

def ofText (text : String) : Path :=
  let components := (Options.pieces '/' text.toList).map String.ofList
  { rooted := text.startsWith "/"
    names := components.filter fun name => name ≠ "" ∧ name ≠ "."
    wantsDirectory := ["", ".", ".."].contains (components.getLast?.getD "") }

def hasNul (text : String) : Bool :=
  text.toList.contains '\x00'

-- No file has an empty path, and no path holds a NUL.
def parse (text : String) : Except Fault Path :=
  if hasNul text then
    .error ⟨.invalidInput, some "file name contained an unexpected NUL byte"⟩
  else if text = "" then .error ⟨.notFound, none⟩
  else if limit ≤ text.utf8ByteSize then .error ⟨.invalidName, none⟩
  else .ok (ofText text)

def join (directory name : String) : String :=
  if directory.endsWith "/" then directory ++ name else directory ++ "/" ++ name

end Path

end TpmRelay
