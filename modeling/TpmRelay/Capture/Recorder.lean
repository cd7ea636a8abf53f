import TpmRelay.Capture.Datagram
import TpmRelay.Capture.Direction
import TpmRelay.Capture.Header
import TpmRelay.Hexdump

set_option autoImplicit false

namespace TpmRelay

def Direction.flow (direction : Direction) : UdpFlow :=
  let (source, destination, identification) : UInt16 × UInt16 × UInt16 :=
    match direction.side, direction.channel with
    | .simulator, .control => (2321, 10001, 1)
    | .simulator, .data => (2322, 10002, 2)
    | .client, .control => (10001, 2321, 1)
    | .client, .data => (10002, 2322, 2)
  { source := .localhost
    sourcePort := source
    destination := .localhost
    destinationPort := destination
    identification }

namespace Capture

structure Recorder where
  sink : Wire.Sink
  flows : Directions NumberedFlow
  records : Nat
  deriving DecidableEq, Repr

structure Chunk where
  direction : Direction
  time : Timestamp
  payload : Bytes
  deriving DecidableEq, Repr

namespace Recorder

def create (sink : Wire.Sink) (header : FileHeader) : Except Fault Unit × Recorder :=
  let (result, sink) := header.toValue.write sink
  (result, { sink, flows := .ofFn fun direction => .start direction.flow, records := 0 })

-- The identification is used up even if the record cannot be written.
def writeDatagram (recorder : Recorder) (direction : Direction) (time : Timestamp)
    (payload : Bytes) : Except Fault Unit × Recorder :=
  let (datagram?, flow) := (recorder.flows.pick direction).generate payload
  let flows := recorder.flows.put direction flow
  match datagram? with
  | none => (.ok (), { recorder with flows })
  | some datagram =>
    let record : Wire.Value := .pair (RecordHeader.new time datagram.length).toValue (.raw datagram)
    match record.write recorder.sink with
    | (.ok (), sink) => (.ok (), { sink, flows, records := recorder.records + 1 })
    | (.error fault, sink) => (.error fault, { recorder with sink, flows })

def writePieces (direction : Direction) (time : Timestamp) :
    List Bytes → Recorder → Except Fault Unit × Recorder
  | [], recorder => (.ok (), recorder)
  | piece :: pieces, recorder =>
    match recorder.writeDatagram direction time piece with
    | (.ok (), recorder) => writePieces direction time pieces recorder
    | failed => failed

def write (recorder : Recorder) (chunk : Chunk) : Except Fault Unit × Recorder :=
  writePieces chunk.direction chunk.time (chunksOf UdpFlow.maxPayload chunk.payload) recorder

def finish (recorder : Recorder) : Except Fault Unit :=
  recorder.sink.flush

end Recorder

end Capture

end TpmRelay
