import TpmRelay.Address.Endpoint
import TpmRelay.Fault

set_option autoImplicit false

namespace TpmRelay

structure HelperTask where
  control : Endpoint
  data : Endpoint
  frontend : String
  deriving DecidableEq, Repr

def HelperTask.arguments (task : HelperTask) : List String :=
  ["--backend-control", task.control.text, "--backend-data", task.data.text,
    "--frontend-control", task.frontend]

inductive ProgramFile where
  | missing
  | notExecutable
  | program
  deriving DecidableEq, Repr

structure HelperCommand where
  program : String := "swtpm_proxy"
  leading : List String := []
  deriving DecidableEq, Repr

def HelperCommand.arguments (command : HelperCommand) (task : HelperTask) : List String :=
  command.leading ++ task.arguments

-- A helper that was started. It may be told to stop more than once, and after it has ended.
structure Helper where
  arguments : List String
  told : Bool := false
  deriving DecidableEq, Repr

-- What a program is told ends at a NUL, so none of its arguments holds one.
def HelperCommand.launch (command : HelperCommand) (task : HelperTask) (file : ProgramFile) :
    Except Fault Helper :=
  let arguments := command.arguments task
  if (command.program :: arguments).any fun word => word.toList.contains '\x00' then
    .error ⟨.invalidInput, some "nul byte found in provided data"⟩
  else match file with
    | .missing => .error ⟨.notFound, none⟩
    | .notExecutable => .error ⟨.permissionDenied, none⟩
    | .program => .ok { arguments }

def Helper.terminate (helper : Helper) : Except Fault Unit × Helper :=
  (.ok (), { helper with told := true })

end TpmRelay
