import TpmRelay.Capture.Header

set_option autoImplicit false

namespace TpmRelay.Capture

def FileHeader.size : Nat := 24

structure Record where
  header : RecordHeader
  datagram : Bytes
  deriving DecidableEq, Repr

def RecordHeader.read? (input : Bytes) : Option (RecordHeader × Bytes) :=
  match Wire.readScalars [.u32, .u32, .u32, .u32] input with
  | (some [.u32 seconds, .u32 micros, .u32 capturedLength, .u32 fullLength], rest) =>
    some ({ seconds, micros, capturedLength, fullLength }, rest)
  | _ => none

def Record.read? (input : Bytes) : Option (Record × Bytes) := do
  let (header, rest) ← RecordHeader.read? input
  let (datagram, rest) ← splitExactly header.capturedLength.toNat rest
  return ({ header, datagram }, rest)

def Record.encode (record : Record) : Bytes :=
  record.header.toValue.encode ++ record.datagram

def readRecords (input : Bytes) : List Record × Bytes :=
  go (input.length / 16 + 1) input
where
  go : Nat → Bytes → List Record × Bytes
    | 0, input => ([], input)
    | more + 1, input =>
      match Record.read? input with
      | none => ([], input)
      | some (record, rest) =>
        let (records, left) := go more rest
        (record :: records, left)

end TpmRelay.Capture
