import TpmRelay.Link.Basic
import TpmRelay.Reassembly

set_option autoImplicit false

namespace TpmRelay

inductive Exit where
  | closed (side : Side)
  | shutdown
  deriving DecidableEq, Repr

def Exit.text : Exit → String
  | closed .simulator => "UpstreamClosed"
  | closed .client => "DownstreamClosed"
  | shutdown => "Shutdown"

inductive Failure where
  | framing (side : Side) (size : UInt32)
  | handler (side : Side) (fault : Fault)
  -- The side is the one that the bytes came from.
  | forward (side : Side) (fault : Fault)
  | link (error : Link.Error)
  deriving DecidableEq, Repr

def Failure.message : Failure → String
  | framing side size =>
    "Invalid framing on the " ++ side.name ++ " data channel: " ++ malformedMessage size
  | handler side fault => "The handler for " ++ side.name ++ " packets failed: " ++ fault.text
  | forward side fault => "Could not forward " ++ side.name ++ " control bytes: " ++ fault.text
  | link error => error.message

inductive Outcome where
  | exited (exit : Exit)
  | failed (failure : Failure)
  deriving DecidableEq, Repr

end TpmRelay
