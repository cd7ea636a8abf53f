import TpmRelay.Numeral
import TpmRelay.Packet.Tag
import TpmRelay.Wire.Value

set_option autoImplicit false

namespace TpmRelay

def headerSize : Nat := 10

structure Header where
  tag : UInt16
  size : UInt32
  code : UInt32
  deriving DecidableEq, Repr

namespace Header

def fields : List Wire.ScalarType := [.u16, .u32, .u32]

def toValue (header : Header) : Wire.Value :=
  .sequence (.u16 header.tag) [.u32 header.size, .u32 header.code]

def encode (header : Header) : Bytes :=
  header.toValue.encode

def parse? (bytes : Bytes) : Option Header :=
  match Wire.readScalars fields bytes with
  | (some [.u16 tag, .u32 size, .u32 code], _) => some { tag, size, code }
  | _ => none

end Header

structure Packet where
  tag : UInt16
  size : UInt32
  code : UInt32
  payload : Bytes
  deriving DecidableEq, Repr

namespace Packet

def wireSize (packet : Packet) : Nat :=
  headerSize + packet.payload.length

def new (tag : UInt16) (code : UInt32) (payload : Bytes) : Packet :=
  { tag, size := .ofNat (headerSize + payload.length), code, payload }

-- The header as it is written: its size is computed from the payload.
def header (packet : Packet) : Header :=
  { tag := packet.tag, size := .ofNat packet.wireSize, code := packet.code }

def toValue (packet : Packet) : Wire.Value :=
  .pair packet.header.toValue (.raw packet.payload)

def serialize (packet : Packet) : Bytes :=
  packet.header.encode ++ packet.payload

def structureTag (packet : Packet) : Option StructureTag :=
  StructureTag.ofValue? packet.tag

def summary (packet : Packet) : List (String × String) :=
  let tag := match packet.structureTag with
    | some tag => tag.title
    | none => "0x" ++ Numeral.hex 4 packet.tag.toNat
  [("tag", tag), ("size", Numeral.decimal packet.size.toNat),
    ("code", "0x" ++ Numeral.hex 8 packet.code.toNat),
    ("payload_len", Numeral.decimal packet.payload.length)]

def text (packet : Packet) : String :=
  let parts := packet.summary.map fun (name, value) => name ++ ": " ++ value
  "Tpm2Packet \x7b " ++ ", ".intercalate parts ++ " \x7d"

def indentedText (packet : Packet) : String :=
  let lines := packet.summary.map fun (name, value) => "    " ++ name ++ ": " ++ value ++ ",\n"
  "Tpm2Packet \x7b\n" ++ String.join lines ++ "\x7d"

end Packet

end TpmRelay
