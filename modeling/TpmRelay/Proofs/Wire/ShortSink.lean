import Mathlib.Tactic.Ring
import TpmRelay.Capture.Header
import TpmRelay.Packet.Basic
import TpmRelay.Proofs.Wire.Writing

set_option autoImplicit false

namespace TpmRelay

theorem bigEndian_eq_map (width n : Nat) :
    bigEndian width n =
      (List.range width).map fun place => UInt8.ofNat (n / 256 ^ (width - 1 - place)) := by
  induction width generalizing n with
  | zero => rfl
  | succ width ih =>
    rw [bigEndian, ih, List.range_succ, List.map_append]
    congr 1
    next =>
      apply List.map_congr_left
      intro place member
      have inside : place < width := List.mem_range.mp member
      have power : width + 1 - 1 - place = width - 1 - place + 1 := by omega
      rw [power, Nat.div_div_eq_div_mul, Nat.pow_succ']
    next => simp

namespace Wire

inductive Field where
  | scalar (scalar : Scalar)
  | raw (bytes : Bytes)

def Field.bytes : Field → Bytes
  | scalar s =>
    (List.range s.type.size).map fun place =>
      UInt8.ofInt (s.toInt / 256 ^ (s.type.size - 1 - place))
  | raw bytes => bytes

def Value.fields : Value → List Field
  | scalar s => [.scalar s]
  | raw bytes => [.raw bytes]
  | pair first second => first.fields ++ second.fields

theorem Scalar.bits_eq (scalar : Scalar) :
    (scalar.bits : Int) = scalar.toInt % 256 ^ scalar.type.size := by
  cases scalar with
  | u8 n | u16 n | u32 n =>
    have bound := n.toNat_lt
    simp only [bits, toInt, type, ScalarType.size]
    omega
  | i32 n =>
    have word : n.toInt = Int.bmod n.toUInt32.toNat (2 ^ 32) := n.toBitVec.toInt_eq_toNat_bmod
    have bound := n.toUInt32.toNat_lt
    simp only [bits, toInt, type, ScalarType.size]
    rw [word, Int.bmod_def]
    split <;> omega

theorem ediv_pow_emod (n : Int) {place width : Nat} (inside : place < width) :
    n % 256 ^ width / 256 ^ place % 256 = n / 256 ^ place % 256 := by
  obtain ⟨above, rfl⟩ := Nat.exists_eq_add_of_lt inside
  have split : n = n % 256 ^ (place + above + 1) +
      256 ^ place * (256 * (256 ^ above * (n / 256 ^ (place + above + 1)))) := by
    calc n = n % 256 ^ (place + above + 1) +
          256 ^ (place + above + 1) * (n / 256 ^ (place + above + 1)) :=
        (Int.emod_add_mul_ediv n _).symm
      _ = _ := by ring
  have positive : (256 : Int) ^ place ≠ 0 := pow_ne_zero _ (by decide)
  conv_rhs => rw [split, Int.add_mul_ediv_left _ _ positive, Int.add_mul_emod_self_left]

theorem Scalar.encode_eq_bytes (scalar : Scalar) : scalar.encode = (Field.scalar scalar).bytes := by
  rw [encode, bigEndian_eq_map, Field.bytes]
  apply List.map_congr_left
  intro place member
  have inside : scalar.type.size - 1 - place < scalar.type.size := by
    have inside := List.mem_range.mp member
    omega
  have same := ediv_pow_emod scalar.toInt inside
  rw [← scalar.bits_eq] at same
  apply UInt8.toNat_inj.mp
  rw [UInt8.toNat_ofNat', UInt8.ofInt, UInt8.toNat_ofNat']
  have cast : ((scalar.bits / 256 ^ (scalar.type.size - 1 - place) : Nat) : Int) =
      scalar.bits / 256 ^ (scalar.type.size - 1 - place) := by
    rw [Int.natCast_ediv, Int.natCast_pow]
    rfl
  omega

theorem Value.encode_eq_fields (value : Value) :
    value.encode = value.fields.flatMap Field.bytes := by
  induction value with
  | scalar s => simp [encode, fields, Scalar.encode_eq_bytes]
  | raw bytes => simp [encode, fields, Field.bytes]
  | pair first second ihFirst ihSecond =>
    rw [encode, fields, List.flatMap_append, ihFirst, ihSecond]

theorem Value.fields_sequence (first : Value) (rest : List Value) :
    (sequence first rest).fields = (first :: rest).flatMap fields := by
  induction rest generalizing first with
  | nil => simp [sequence]
  | cons second rest ih =>
    rw [sequence, fields, ih]
    rfl

theorem Sink.write_limited (room : Nat) (flushFault : Option Fault) (before bytes : Bytes) :
    write ⟨some (before.length + room), flushFault, before⟩ bytes =
      (if bytes.length ≤ room then .ok () else .error full,
        ⟨some (before.length + room), flushFault, before ++ bytes.take room⟩) := by
  have left : before.length + room - before.length = room := by omega
  by_cases fits : bytes.length ≤ room
  next => simp [write, left, List.take_of_length_le fits, fits]
  next =>
    have cut : ¬ min room bytes.length = bytes.length := by omega
    simp [write, left, fits, cut]

theorem short_sink_takes_prefix :
    (∀ (value : Value) (room : Nat) (flushFault : Option Fault) (before : Bytes),
      value.write ⟨some (before.length + room), flushFault, before⟩ =
        (if value.encode.length ≤ room then .ok () else .error Sink.full,
          ⟨some (before.length + room), flushFault, before ++ value.encode.take room⟩)) ∧
    (∀ value : Value, value.encode = value.fields.flatMap Field.bytes) ∧
    (∀ (first : Value) (rest : List Value),
      (Value.sequence first rest).fields = (first :: rest).flatMap Value.fields) ∧
    (∀ header : Header, header.toValue.fields =
      [.scalar (.u16 header.tag), .scalar (.u32 header.size), .scalar (.u32 header.code)]) ∧
    (∀ packet : Packet, packet.toValue.fields =
      [.scalar (.u16 packet.tag), .scalar (.u32 (.ofNat packet.wireSize)),
        .scalar (.u32 packet.code), .raw packet.payload]) ∧
    (∀ header : Capture.FileHeader, header.toValue.fields =
      [.scalar (.u32 Capture.FileHeader.magic), .scalar (.u16 header.majorVersion),
        .scalar (.u16 header.minorVersion), .scalar (.i32 header.gmtOffset),
        .scalar (.u32 header.timestampAccuracy), .scalar (.u32 header.snapshotLength),
        .scalar (.u32 header.linkType)]) ∧
    ∀ header : Capture.RecordHeader, header.toValue.fields =
      [.scalar (.u32 header.seconds), .scalar (.u32 header.micros),
        .scalar (.u32 header.capturedLength), .scalar (.u32 header.fullLength)] := by
  refine ⟨?_, Value.encode_eq_fields, Value.fields_sequence, fun _ => rfl, fun _ => rfl,
    fun _ => rfl, fun _ => rfl⟩
  intro value room flushFault before
  rw [Value.write_eq, Sink.write_limited]

end Wire

end TpmRelay
