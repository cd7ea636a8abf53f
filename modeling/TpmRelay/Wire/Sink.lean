import TpmRelay.Bytes
import TpmRelay.Fault

set_option autoImplicit false

namespace TpmRelay.Wire

structure Sink where
  -- How many bytes the sink takes in all; no limit if absent.
  limit : Option Nat := none
  flushFault : Option Fault := none
  accepted : Bytes := []
  deriving DecidableEq, Repr

namespace Sink

def full : Fault := ⟨.storageFull, some "writer is full"⟩

def write (sink : Sink) (bytes : Bytes) : Except Fault Unit × Sink :=
  match sink.limit with
  | none => (.ok (), { sink with accepted := sink.accepted ++ bytes })
  | some limit =>
    let taken := bytes.take (limit - sink.accepted.length)
    let sink := { sink with accepted := sink.accepted ++ taken }
    if taken.length = bytes.length then (.ok (), sink) else (.error full, sink)

def flush (sink : Sink) : Except Fault Unit :=
  match sink.flushFault with
  | none => .ok ()
  | some fault => .error fault

end Sink

end TpmRelay.Wire
