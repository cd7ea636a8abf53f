import TpmRelay.CommandLine.Parameter

set_option autoImplicit false

namespace TpmRelay.CommandLine

def Parameter.placeholder : Parameter → String
  | simulatorControl | simulatorData | frontendControl | backendControl | backendData => "<ADDR>"
  | helper => "<PROGRAM>"
  | helperArgument => "<ARG>"
  | capture => "<PATH>"
  | logLevel => "<LOG_LEVEL>"

def Parameter.purpose : Parameter → String
  | simulatorControl => "Control channel of the running simulator"
  | simulatorData => "Data channel of the running simulator"
  | frontendControl => "Control address that the helper offers to the client"
  | backendControl => "Where to listen for the helper's control connection [default: any free port]"
  | backendData => "Where to listen for the helper's data connection [default: any free port]"
  | helper => "Helper program [default: swtpm_proxy]"
  | helperArgument => "Extra argument for the helper, may be repeated"
  | capture => "Write a packet capture to this file, or into this directory"
  | logLevel => "Log filter [default: info]"

def Parameter.shown (parameter : Parameter) : String :=
  "--" ++ parameter.name ++ " " ++ parameter.placeholder

def Switch.text : Switch → String
  | version => "tpm2-proxy 0.1.0"
  | help =>
    let line (parameter : Parameter) : String :=
      "  " ++ parameter.shown ++ "\n      " ++ parameter.purpose
    "Man-in-the-middle proxy between a TPM2 TCTI client and an swtpm simulator.\n\nOptions:\n" ++
      "\n".intercalate (Parameter.all.map line) ++ "\n  -h, --help\n  -V, --version"

def UsageError.message : UsageError → String
  | shown switch => switch.text
  | unknownWord word => "error: unexpected argument '" ++ word ++ "' found"
  | valueMissing parameter =>
    "error: a value is required for '" ++ parameter.shown ++ "' but none was supplied"
  | valueUnexpected switch =>
    let name := match switch with
      | .help => "--help"
      | .version => "--version"
    "error: unexpected value for '" ++ name ++ "' found; no more were expected"
  | repeated parameter =>
    "error: the argument '" ++ parameter.shown ++ "' cannot be used multiple times"
  | addressRefused parameter error =>
    "error: invalid value for '" ++ parameter.shown ++ "': " ++ error.message
  | required parameters =>
    "error: the following required arguments were not provided:\n" ++
      "\n".intercalate (parameters.map fun parameter => "  " ++ parameter.shown)

def UsageError.exitCode : UsageError → Nat
  | shown _ => 0
  | _ => 2

end TpmRelay.CommandLine
