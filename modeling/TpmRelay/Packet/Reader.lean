import TpmRelay.Packet.Basic

set_option autoImplicit false

namespace TpmRelay

inductive ReadFault where
  | endInHeader
  | endInPayload
  | sizeTooSmall (size : UInt32)
  deriving DecidableEq, Repr

def ReadFault.toFault : ReadFault → Fault
  | endInHeader => Wire.cutShort
  | endInPayload => ⟨.unexpectedEnd, some "early eof"⟩
  | sizeTooSmall size =>
    ⟨.invalidData, some s!"TPM2 packet size {size.toNat} is smaller than its header"⟩

def Header.read (input : Bytes) : Except ReadFault Header × Bytes :=
  match Wire.readScalars fields input with
  | (some [.u16 tag, .u32 size, .u32 code], rest) => (.ok { tag, size, code }, rest)
  | (_, rest) => (.error .endInHeader, rest)

def Packet.read (input : Bytes) : Except ReadFault Packet × Bytes :=
  match Header.read input with
  | (.error fault, rest) => (.error fault, rest)
  | (.ok header, rest) =>
    if header.size.toNat < headerSize then (.error (.sizeTooSmall header.size), rest)
    else match splitExactly (header.size.toNat - headerSize) rest with
      | none => (.error .endInPayload, [])
      | some (payload, rest) =>
        (.ok { tag := header.tag, size := header.size, code := header.code, payload }, rest)

def readUntilFault {α : Type} (read : Bytes → Except ReadFault α × Bytes) (input : Bytes) :
    List (α × Bytes) × (ReadFault × Bytes) :=
  go (input.length + 1) input
where
  go : Nat → Bytes → List (α × Bytes) × (ReadFault × Bytes)
    | 0, input => ([], (.endInHeader, input))
    | more + 1, input =>
      match read input with
      | (.error fault, rest) => ([], (fault, rest))
      | (.ok value, rest) =>
        let (values, last) := go more rest
        ((value, rest) :: values, last)

def Header.readAll : Bytes → List (Header × Bytes) × (ReadFault × Bytes) :=
  readUntilFault Header.read

def Packet.readAll : Bytes → List (Packet × Bytes) × (ReadFault × Bytes) :=
  readUntilFault Packet.read

end TpmRelay
