set_option autoImplicit false

namespace TpmRelay

inductive FaultKind where
  | notFound
  | permissionDenied
  | connectionRefused
  | connectionReset
  | connectionAborted
  | notConnected
  | networkUnreachable
  | addressInUse
  | addressNotAvailable
  | brokenPipe
  | invalidInput
  | invalidData
  | isDirectory
  | notDirectory
  | storageFull
  | invalidName
  | unexpectedEnd
  | other
  deriving DecidableEq, Repr

def FaultKind.describe : FaultKind → String
  | notFound => "entity not found"
  | permissionDenied => "permission denied"
  | connectionRefused => "connection refused"
  | connectionReset => "connection reset"
  | connectionAborted => "connection aborted"
  | notConnected => "not connected"
  | networkUnreachable => "network unreachable"
  | addressInUse => "address in use"
  | addressNotAvailable => "address not available"
  | brokenPipe => "broken pipe"
  | invalidInput => "invalid input parameter"
  | invalidData => "invalid data"
  | isDirectory => "is a directory"
  | notDirectory => "not a directory"
  | storageFull => "no storage space"
  | invalidName => "invalid filename"
  | unexpectedEnd => "unexpected end of file"
  | other => "other error"

structure Fault where
  kind : FaultKind
  message : Option String := none
  deriving DecidableEq, Repr

def Fault.text (fault : Fault) : String :=
  fault.message.getD fault.kind.describe

end TpmRelay
