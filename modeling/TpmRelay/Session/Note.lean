import TpmRelay.Capture.Direction
import TpmRelay.Hexdump
import TpmRelay.Session.Outcome

set_option autoImplicit false

namespace TpmRelay

inductive Level where
  | trace
  | debug
  | info
  | warn
  deriving DecidableEq, Repr

def Level.name : Level → String
  | trace => "TRACE"
  | debug => "DEBUG"
  | info => "INFO"
  | warn => "WARN"

inductive Note where
  | relaying
  | read (direction : Direction) (chunk : Bytes)
  | dispatching (side : Side) (packet : Packet)
  | closed (side : Side)
  | discarding (side : Side) (count : Nat)
  | captureFailed (fault : Fault)
  | captureFinished (records : Nat)
  | flushFailed (fault : Fault)
  | ended (outcome : Outcome)
  deriving DecidableEq, Repr

namespace Note

def level : Note → Level
  | read .. | dispatching .. => .trace
  | discarding .. | captureFinished .. => .debug
  | relaying | closed _ | ended (.exited _) => .info
  | captureFailed _ | flushFailed _ | ended (.failed _) => .warn

def text : Note → String
  | relaying => "Relaying traffic between upstream and downstream"
  | read direction chunk =>
    "Read " ++ Numeral.decimal chunk.length ++ " bytes of " ++ direction.text ++ ":\n" ++
      hexdump chunk
  | dispatching side packet => "Dispatching " ++ side.name ++ " packet " ++ packet.text
  | closed side => "The " ++ side.name ++ " endpoint closed"
  | discarding side count =>
    "Discarding " ++ Numeral.decimal count ++ " bytes of an incomplete " ++ side.name ++ " packet"
  | captureFailed fault => "Packet capture failed, disabling it: " ++ fault.text
  | captureFinished records =>
    "Packet capture finished with " ++ Numeral.decimal records ++ " records"
  | flushFailed fault => "Could not flush the packet capture: " ++ fault.text
  | ended (.exited exit) => "Proxy session ended: " ++ exit.text
  | ended (.failed failure) => "Proxy session failed: " ++ failure.message

end Note

end TpmRelay
