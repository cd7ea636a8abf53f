import TpmRelay.Capture.Reader
import TpmRelay.Capture.Recorder
import TpmRelay.Proofs.Wire.ScalarCodec

set_option autoImplicit false

namespace TpmRelay.Capture

namespace FileHeader

def fields : List Wire.ScalarType := [.u32, .u16, .u16, .i32, .u32, .u32, .u32]

def read? (input : Bytes) : Option (FileHeader × Bytes) :=
  match Wire.readScalars fields input with
  | (some [.u32 start, .u16 majorVersion, .u16 minorVersion, .i32 gmtOffset,
      .u32 timestampAccuracy, .u32 snapshotLength, .u32 linkType], rest) =>
    if start = magic then
      some ({ majorVersion, minorVersion, gmtOffset, timestampAccuracy, snapshotLength, linkType },
        rest)
    else none
  | _ => none

def encode (header : FileHeader) : Bytes :=
  header.toValue.encode

def scalars (header : FileHeader) : List Wire.Scalar :=
  [.u32 magic, .u16 header.majorVersion, .u16 header.minorVersion, .i32 header.gmtOffset,
    .u32 header.timestampAccuracy, .u32 header.snapshotLength, .u32 header.linkType]

theorem encode_eq (header : FileHeader) : header.encode = Wire.encodeScalars header.scalars := by
  simp [encode, toValue, Wire.Value.sequence, Wire.Value.encode, Wire.Value.u16, Wire.Value.u32,
    Wire.Value.i32, Wire.encodeScalars, scalars]

theorem map_type_scalars (header : FileHeader) : header.scalars.map Wire.Scalar.type = fields := rfl

@[simp] theorem length_encode (header : FileHeader) : header.encode.length = 24 := by
  rw [encode_eq, Wire.length_encodeScalars, map_type_scalars]
  rfl

theorem read?_encode_append (header : FileHeader) (rest : Bytes) :
    read? (header.encode ++ rest) = some (header, rest) := by
  rw [encode_eq, read?, ← map_type_scalars header, Wire.readScalars_encode_append]
  rfl

end FileHeader

namespace RecordHeader

def encode (header : RecordHeader) : Bytes :=
  header.toValue.encode

def scalars (header : RecordHeader) : List Wire.Scalar :=
  [.u32 header.seconds, .u32 header.micros, .u32 header.capturedLength, .u32 header.fullLength]

theorem encode_eq (header : RecordHeader) : header.encode = Wire.encodeScalars header.scalars := by
  simp [encode, toValue, Wire.Value.sequence, Wire.Value.encode, Wire.Value.u32,
    Wire.encodeScalars, scalars]

theorem map_type_scalars (header : RecordHeader) :
    header.scalars.map Wire.Scalar.type = [.u32, .u32, .u32, .u32] := rfl

@[simp] theorem length_encode (header : RecordHeader) : header.encode.length = 16 := by
  rw [encode_eq, Wire.length_encodeScalars, map_type_scalars]
  rfl

theorem read?_encode_append (header : RecordHeader) (rest : Bytes) :
    read? (header.encode ++ rest) = some (header, rest) := by
  rw [encode_eq, read?, ← map_type_scalars header, Wire.readScalars_encode_append]
  rfl

end RecordHeader

namespace Record

def Sized (record : Record) : Prop :=
  record.datagram.length = record.header.capturedLength.toNat

@[simp] theorem length_encode (record : Record) :
    record.encode.length = 16 + record.datagram.length := by
  have header : record.header.toValue.encode.length = 16 := record.header.length_encode
  rw [encode, List.length_append, header]

theorem read?_encode_append {record : Record} (sized : record.Sized) (rest : Bytes) :
    read? (record.encode ++ rest) = some (record, rest) := by
  have header : RecordHeader.read? (record.encode ++ rest) =
      some (record.header, record.datagram ++ rest) := by
    rw [encode, List.append_assoc]
    exact record.header.read?_encode_append _
  have datagram : splitExactly record.header.capturedLength.toNat (record.datagram ++ rest) =
      some (record.datagram, rest) := splitExactly_eq_some.mpr ⟨sized, rfl⟩
  simp [read?, header, datagram]

def encodeAll (records : List Record) : Bytes :=
  records.flatMap encode

@[simp] theorem encodeAll_append (first second : List Record) :
    encodeAll (first ++ second) = encodeAll first ++ encodeAll second :=
  List.flatMap_append

theorem length_le_encodeAll (records : List Record) :
    records.length * 16 ≤ (encodeAll records).length := by
  induction records with
  | nil => simp
  | cons record records ih =>
    simp only [encodeAll] at ih ⊢
    simp only [List.flatMap_cons, List.length_append, length_encode, List.length_cons]
    omega

end Record

theorem readRecords_encodeAll {records : List Record} {rest : Bytes}
    (sized : ∀ record ∈ records, record.Sized) (last : Record.read? rest = none) :
    readRecords (Record.encodeAll records ++ rest) = (records, rest) := by
  have enough (fuel : Nat) (more : records.length < fuel) :
      readRecords.go fuel (Record.encodeAll records ++ rest) = (records, rest) := by
    induction records generalizing fuel with
    | nil =>
      cases fuel with
      | zero => simp at more
      | succ fuel => simp [readRecords.go, Record.encodeAll, last]
    | cons record records ih =>
      cases fuel with
      | zero => simp at more
      | succ fuel =>
        have first := Record.read?_encode_append (sized record List.mem_cons_self)
          (Record.encodeAll records ++ rest)
        have later := ih (fun other member => sized other (List.mem_cons_of_mem _ member)) fuel
          (by simpa using more)
        rw [Record.encodeAll, List.flatMap_cons, List.append_assoc, ← Record.encodeAll]
        simp [readRecords.go, first, later]
  apply enough
  have length := Record.length_le_encodeAll records
  rw [List.length_append]
  omega

structure Segment where
  identification : UInt16
  sourcePort : UInt16
  destinationPort : UInt16
  payload : Bytes
  deriving DecidableEq, Repr

namespace Segment

def wordAt (place : Nat) (bytes : Bytes) : UInt16 :=
  .ofNat (ofBigEndian ((bytes.drop place).take 2))

def read? (datagram : Bytes) : Option Segment := do
  let (ip, segment) ← splitExactly UdpFlow.ipHeaderSize datagram
  let (udp, payload) ← splitExactly UdpFlow.udpHeaderSize segment
  if ip[0]? = some 0x45 ∧ ip[9]? = some 17 ∧ (wordAt 2 ip).toNat = datagram.length ∧
      (wordAt 4 udp).toNat = segment.length then
    some {
      identification := wordAt 4 ip
      sourcePort := wordAt 0 udp
      destinationPort := wordAt 2 udp
      payload }
  else none

theorem ofNat_ofBigEndian_bigEndian (n : Nat) :
    UInt16.ofNat (ofBigEndian (bigEndian 2 n)) = .ofNat n := by
  rw [ofBigEndian_bigEndian]
  apply UInt16.toNat_inj.mp
  simp

def direction? (segment : Segment) : Option Direction :=
  Direction.all.find? fun direction =>
    direction.flow.sourcePort = segment.sourcePort ∧
      direction.flow.destinationPort = segment.destinationPort

end Segment

end TpmRelay.Capture

namespace TpmRelay.UdpFlow

open Capture

variable (flow : UdpFlow) (identification checksum : UInt16) (length : Nat) (payload : Bytes)

def segment : Segment where
  identification
  sourcePort := flow.sourcePort
  destinationPort := flow.destinationPort
  payload

@[simp] theorem length_ipHeader :
    (flow.ipHeader identification length checksum).length = ipHeaderSize := by
  simp [ipHeader, Ipv4.octets, ipHeaderSize]

@[simp] theorem length_udpHeader : (flow.udpHeader length checksum).length = udpHeaderSize := by
  simp [udpHeader, udpHeaderSize]

@[simp] theorem length_datagram :
    (flow.datagram identification payload).length = overhead + payload.length := by
  simp [datagram, overhead, Nat.add_assoc]

theorem wordAt_ipHeader :
    Segment.wordAt 2 (flow.ipHeader identification length checksum) = .ofNat (overhead + length) ∧
      Segment.wordAt 4 (flow.ipHeader identification length checksum) = identification := by
  simp [Segment.wordAt, ipHeader, List.drop_append, Segment.ofNat_ofBigEndian_bigEndian]

theorem wordAt_udpHeader :
    Segment.wordAt 0 (flow.udpHeader length checksum) = flow.sourcePort ∧
      Segment.wordAt 2 (flow.udpHeader length checksum) = flow.destinationPort ∧
      Segment.wordAt 4 (flow.udpHeader length checksum) = .ofNat (udpHeaderSize + length) := by
  simp [Segment.wordAt, udpHeader, List.drop_append, List.drop_of_length_le,
    Segment.ofNat_ofBigEndian_bigEndian]

theorem read?_datagram (fits : payload.length ≤ maxPayload) :
    Segment.read? (flow.datagram identification payload) =
      some (flow.segment identification payload) := by
  have ip (checksum : UInt16) (rest : Bytes) : splitExactly ipHeaderSize
      (flow.ipHeader identification payload.length checksum ++ rest) = some (_, rest) :=
    splitExactly_eq_some.mpr ⟨length_ipHeader .., rfl⟩
  have udp (checksum : UInt16) (rest : Bytes) : splitExactly udpHeaderSize
      (flow.udpHeader payload.length checksum ++ rest) = some (_, rest) :=
    splitExactly_eq_some.mpr ⟨length_udpHeader .., rfl⟩
  have total : ipHeaderSize + (udpHeaderSize + payload.length) < 65536 := by
    simp only [maxPayload, overhead, ipHeaderSize, udpHeaderSize] at fits ⊢
    omega
  have size : udpHeaderSize + payload.length < 65536 := by omega
  have kind (checksum : UInt16) :
      (flow.ipHeader identification payload.length checksum)[0]? = some 0x45 ∧
        (flow.ipHeader identification payload.length checksum)[9]? = some 17 := by
    simp [ipHeader, List.getElem?_append]
  rw [Segment.read?, datagram, List.append_assoc, ip]
  simp [udp, kind, wordAt_ipHeader, wordAt_udpHeader, segment, total, size, overhead, Nat.add_assoc]

end TpmRelay.UdpFlow
