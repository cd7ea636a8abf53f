import TpmRelay.Proofs.Packet.Reading
import TpmRelay.Proofs.Wire.Writing

set_option autoImplicit false

namespace TpmRelay

theorem Reassembly.extract_eq_packet {packet : Packet} {input rest : Bytes} :
    extract ⟨⟨input⟩⟩ = (.packet packet, ⟨⟨rest⟩⟩) ↔
      packet.Exact ∧ input = packet.serialize ++ rest := by
  constructor
  next =>
    intro found
    cases front input with
    | incomplete short => simp [extract_incomplete short] at found
    | malformed header rest small => simp [extract_malformed header rest small] at found
    | packet packet rest exact =>
      rw [extract_packet packet rest exact] at found
      simp only [Prod.mk.injEq, Extraction.packet.injEq, mk.injEq, ByteQueue.mk.injEq] at found
      obtain ⟨rfl, rfl⟩ := found
      exact ⟨exact, rfl⟩
  next =>
    rintro ⟨exact, rfl⟩
    exact extract_packet packet rest exact

namespace Packet

variable (packet : Packet)

def resized : Packet :=
  { packet with size := .ofNat (headerSize + packet.payload.length) }

@[simp] theorem serialize_resized : packet.resized.serialize = packet.serialize := rfl

theorem encode_toValue : packet.toValue.encode = packet.serialize := rfl

theorem exact_resized : packet.resized.Exact ↔ headerSize + packet.payload.length < UInt32.size := by
  simp only [Exact, resized, wireSize, UInt32.toNat_ofNat']
  constructor
  next =>
    intro same
    rw [← same]
    exact Nat.mod_lt _ (by decide)
  next => exact Nat.mod_eq_of_lt

theorem Exact.limit {packet : Packet} (exact : packet.Exact) :
    headerSize + packet.payload.length < UInt32.size := by
  have size : packet.size.toNat = headerSize + packet.payload.length := exact
  rw [← size]
  exact packet.size.toNat_lt

theorem Exact.resized_eq {packet : Packet} (exact : packet.Exact) : packet.resized = packet := by
  have size : packet.size.toNat = headerSize + packet.payload.length := exact
  simp [resized, ← size]

theorem exact_new (tag : UInt16) (code : UInt32) (payload : Bytes)
    (limit : headerSize + payload.length < UInt32.size) : (new tag code payload).Exact :=
  (exact_resized (new tag code payload)).mpr limit

theorem exact_and_serialize_eq {other : Packet} :
    other.Exact ∧ packet.serialize = other.serialize ↔
      headerSize + packet.payload.length < UInt32.size ∧ other = packet.resized := by
  constructor
  next =>
    rintro ⟨exact, same⟩
    have length := congrArg List.length same
    simp only [length_serialize, wireSize] at length
    have limit : headerSize + packet.payload.length < UInt32.size := length ▸ exact.limit
    refine ⟨limit, ?_⟩
    -- Both are what is read from the same bytes.
    have first := read_packet other [] exact
    have second := read_packet packet.resized [] (packet.exact_resized.mpr limit)
    rw [serialize_resized, same, first] at second
    simpa using second
  next =>
    rintro ⟨limit, rfl⟩
    exact ⟨packet.exact_resized.mpr limit, rfl⟩

theorem extract_serialize {other : Packet} {rest : Bytes} :
    Reassembly.extract ⟨⟨packet.serialize ++ rest⟩⟩ = (.packet other, ⟨⟨rest⟩⟩) ↔
      headerSize + packet.payload.length < UInt32.size ∧ other = packet.resized := by
  rw [Reassembly.extract_eq_packet, List.append_left_inj, exact_and_serialize_eq]

theorem read_serialize {other : Packet} {rest : Bytes} :
    read (packet.serialize ++ rest) = (.ok other, rest) ↔
      headerSize + packet.payload.length < UInt32.size ∧ other = packet.resized := by
  rw [read_eq_ok, List.append_left_inj, exact_and_serialize_eq]

theorem limit_and_eq_resized :
    headerSize + packet.payload.length < UInt32.size ∧ packet = packet.resized ↔
      headerSize + packet.payload.length < UInt32.size ∧
        packet.size.toNat = headerSize + packet.payload.length := by
  constructor
  next =>
    rintro ⟨limit, same⟩
    have exact := packet.exact_resized.mpr limit
    rw [← same] at exact
    exact ⟨limit, exact⟩
  next =>
    rintro ⟨limit, exact⟩
    exact ⟨limit, (Exact.resized_eq exact).symm⟩

theorem comes_back_below_limit (packet : Packet) (rest : Bytes) :
    let limit := headerSize + packet.payload.length < UInt32.size
    let resized := { packet with size := .ofNat (headerSize + packet.payload.length) }
    let exact := packet.size.toNat = headerSize + packet.payload.length
    -- Writing it, into whatever sink, is writing its serialization.
    (∀ sink, packet.toValue.write sink = sink.write packet.serialize) ∧
    (∀ fault accepted, packet.toValue.write ⟨none, fault, accepted⟩ =
      (.ok (), ⟨none, fault, accepted ++ packet.serialize⟩)) ∧
    (Reassembly.extract ⟨⟨packet.serialize ++ rest⟩⟩ = (.packet resized, ⟨⟨rest⟩⟩) ↔ limit) ∧
    (read (packet.serialize ++ rest) = (.ok resized, rest) ↔ limit) ∧
    (Reassembly.extract ⟨⟨packet.serialize ++ rest⟩⟩ = (.packet packet, ⟨⟨rest⟩⟩) ↔
      limit ∧ exact) ∧
    (read (packet.serialize ++ rest) = (.ok packet, rest) ↔ limit ∧ exact) ∧
    (∀ tag code payload, headerSize + payload.length < UInt32.size →
      (new tag code payload).size.toNat = headerSize + payload.length) := by
  have writes (sink : Wire.Sink) : packet.toValue.write sink = sink.write packet.serialize := by
    rw [Wire.Value.write_eq, encode_toValue]
  refine ⟨writes, fun fault accepted => writes _, ?_, ?_, ?_, ?_, exact_new⟩
  next =>
    rw [extract_serialize]
    exact and_iff_left rfl
  next =>
    rw [read_serialize]
    exact and_iff_left rfl
  next => rw [extract_serialize, limit_and_eq_resized]
  next => rw [read_serialize, limit_and_eq_resized]

end Packet

end TpmRelay
