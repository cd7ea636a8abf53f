import TpmRelay.Address.Endpoint

set_option autoImplicit false

namespace TpmRelay.CommandLine

inductive Parameter where
  | simulatorControl
  | simulatorData
  | frontendControl
  | backendControl
  | backendData
  | helper
  | helperArgument
  | capture
  | logLevel
  deriving DecidableEq, Repr

namespace Parameter

def all : List Parameter :=
  [simulatorControl, simulatorData, frontendControl, backendControl, backendData, helper,
    helperArgument, capture, logLevel]

def name : Parameter → String
  | simulatorControl => "upstream-control"
  | simulatorData => "upstream-data"
  | frontendControl => "frontend-control"
  | backendControl => "backend-control"
  | backendData => "backend-data"
  | helper => "helper"
  | helperArgument => "helper-arg"
  | capture => "pcap"
  | logLevel => "log-level"

def named? (name : String) : Option Parameter :=
  all.find? (·.name = name)

def takesAnyWord (parameter : Parameter) : Bool :=
  parameter = helperArgument

end Parameter

inductive Switch where
  | help
  | version
  deriving DecidableEq, Repr

namespace Switch

def named? : String → Option Switch
  | "help" => some help
  | "version" => some version
  | _ => none

def lettered? : Char → Option Switch
  | 'h' => some help
  | 'V' => some version
  | _ => none

end Switch

inductive UsageError where
  -- Not an error of the user: the text of the switch is to be shown.
  | shown (switch : Switch)
  | unknownWord (word : String)
  | valueMissing (parameter : Parameter)
  | valueUnexpected (switch : Switch)
  | repeated (parameter : Parameter)
  | addressRefused (parameter : Parameter) (error : AddressError)
  | required (parameters : List Parameter)
  deriving DecidableEq, Repr

end TpmRelay.CommandLine
