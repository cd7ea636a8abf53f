import TpmRelay.CommandLine.Parameter
import TpmRelay.FileTree.Path
import TpmRelay.Link.Helper
import TpmRelay.Sides

set_option autoImplicit false

namespace TpmRelay.CommandLine

structure Draft where
  simulatorControl : Option Endpoint := none
  simulatorData : Option Endpoint := none
  frontendControl : Option String := none
  backendControl : Option Endpoint := none
  backendData : Option Endpoint := none
  helper : Option String := none
  helperArguments : List String := []
  capture : Option String := none
  logLevel : Option String := none
  deriving DecidableEq, Repr

structure Arguments where
  simulator : Channels Endpoint
  frontendControl : String
  backend : Channels (Option Endpoint)
  helper : HelperCommand
  capture : Option String
  logLevel : String
  deriving DecidableEq, Repr

namespace Draft

def has (draft : Draft) : Parameter → Bool
  | .simulatorControl => draft.simulatorControl.isSome
  | .simulatorData => draft.simulatorData.isSome
  | .frontendControl => draft.frontendControl.isSome
  | .backendControl => draft.backendControl.isSome
  | .backendData => draft.backendData.isSome
  | .helper => draft.helper.isSome
  | .helperArgument => !draft.helperArguments.isEmpty
  | .capture => draft.capture.isSome
  | .logLevel => draft.logLevel.isSome

def endpoint (parameter : Parameter) (value : String) : Except UsageError Endpoint :=
  (Endpoint.parse value).mapError (.addressRefused parameter)

def path (parameter : Parameter) (value : String) : Except UsageError String :=
  if value = "" then .error (.valueMissing parameter) else .ok value

def assign (draft : Draft) (parameter : Parameter) (value : String) : Except UsageError Draft :=
  if draft.has parameter ∧ parameter ≠ .helperArgument then .error (.repeated parameter)
  else match parameter with
    | .simulatorControl =>
      (endpoint parameter value).map fun given => { draft with simulatorControl := some given }
    | .simulatorData =>
      (endpoint parameter value).map fun given => { draft with simulatorData := some given }
    | .frontendControl => .ok { draft with frontendControl := some value }
    | .backendControl =>
      (endpoint parameter value).map fun given => { draft with backendControl := some given }
    | .backendData =>
      (endpoint parameter value).map fun given => { draft with backendData := some given }
    | .helper => (path parameter value).map fun given => { draft with helper := some given }
    | .helperArgument => .ok { draft with helperArguments := draft.helperArguments ++ [value] }
    | .capture => (path parameter value).map fun given => { draft with capture := some given }
    | .logLevel => .ok { draft with logLevel := some value }

def complete (draft : Draft) : Except UsageError Arguments :=
  match draft.simulatorControl, draft.simulatorData, draft.frontendControl with
  | some control, some data, some frontendControl =>
    let standard : HelperCommand := {}
    let program := draft.helper.getD standard.program
    .ok { simulator := ⟨control, data⟩
          frontendControl
          backend := ⟨draft.backendControl, draft.backendData⟩
          helper := { program, leading := draft.helperArguments }
          capture := draft.capture
          logLevel := draft.logLevel.getD "info" }
  | _, _, _ =>
    let wanted := [Parameter.simulatorControl, .simulatorData, .frontendControl]
    .error (.required (wanted.filter fun parameter => !draft.has parameter))

end Draft

namespace Arguments

def listening (arguments : Arguments) : HelperTask where
  control := arguments.backend.control.getD .ephemeral
  data := arguments.backend.data.getD .ephemeral
  frontend := arguments.frontendControl

def capturePath (arguments : Arguments) (isDirectory : String → Bool) (millis : Nat) :
    Option String :=
  arguments.capture.map fun path =>
    if isDirectory path then Path.join path ("tpm-capture-" ++ Numeral.decimal millis ++ ".pcap")
    else path

end Arguments

end TpmRelay.CommandLine
