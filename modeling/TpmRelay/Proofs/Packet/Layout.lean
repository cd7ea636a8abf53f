import TpmRelay.Packet.Basic
import TpmRelay.Proofs.Wire.ScalarCodec

set_option autoImplicit false

namespace TpmRelay

namespace Header

def scalars (header : Header) : List Wire.Scalar :=
  [.u16 header.tag, .u32 header.size, .u32 header.code]

theorem encode_eq (header : Header) : header.encode = Wire.encodeScalars header.scalars := by
  simp [encode, toValue, Wire.Value.sequence, Wire.Value.encode, Wire.Value.u16, Wire.Value.u32,
    Wire.encodeScalars, scalars]

@[simp] theorem map_type_scalars (header : Header) :
    header.scalars.map Wire.Scalar.type = fields := rfl

@[simp] theorem length_encode (header : Header) : header.encode.length = headerSize := by
  rw [encode_eq, Wire.length_encodeScalars, map_type_scalars]
  rfl

theorem parse?_encode_append (header : Header) (rest : Bytes) :
    parse? (header.encode ++ rest) = some header := by
  rw [encode_eq, parse?, ← map_type_scalars header, Wire.readScalars_encode_append]
  rfl

theorem exists_eq_scalars {scalars : List Wire.Scalar}
    (types : scalars.map Wire.Scalar.type = fields) :
    ∃ header : Header, scalars = header.scalars := by
  match scalars, types with
  | [.u16 tag, .u32 size, .u32 code], _ => exact ⟨{ tag, size, code }, rfl⟩

theorem exists_encode_append {bytes : Bytes} (enough : headerSize ≤ bytes.length) :
    ∃ (header : Header) (rest : Bytes), bytes = header.encode ++ rest := by
  cases found : Wire.readScalars fields bytes with
  | mk result rest =>
    cases result with
    | none =>
      have short := (Wire.readScalars_eq_none found).1
      have total : Wire.totalSize fields = headerSize := rfl
      omega
    | some scalars =>
      obtain ⟨types, joined⟩ := Wire.encode_of_readScalars found
      obtain ⟨header, rfl⟩ := exists_eq_scalars types
      exact ⟨header, rest, by rw [joined, encode_eq]⟩

end Header

namespace Packet

/-- The `size` field is the size that the packet is written with. -/
def Exact (packet : Packet) : Prop :=
  packet.size.toNat = packet.wireSize

@[simp] theorem length_serialize (packet : Packet) : packet.serialize.length = packet.wireSize := by
  simp [serialize, wireSize]

theorem headerSize_le_wireSize (packet : Packet) : headerSize ≤ packet.wireSize :=
  Nat.le_add_right _ _

theorem wireSize_pos (packet : Packet) : 0 < packet.wireSize :=
  Nat.lt_of_lt_of_le (by decide) packet.headerSize_le_wireSize

theorem Exact.header_eq {packet : Packet} (exact : packet.Exact) :
    packet.header = { tag := packet.tag, size := packet.size, code := packet.code } := by
  have size : packet.size.toNat = packet.wireSize := exact
  simp [header, ← size]

theorem serialize_append (packet : Packet) (rest : Bytes) :
    packet.serialize ++ rest = packet.header.encode ++ (packet.payload ++ rest) := by
  simp [serialize]

end Packet

end TpmRelay
