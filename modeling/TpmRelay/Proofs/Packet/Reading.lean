import TpmRelay.Packet.Reader
import TpmRelay.Proofs.Reassembly.Framing

set_option autoImplicit false

namespace TpmRelay

-- Reads made one after another, each with the bytes it leaves, up to the first that fails.
inductive Reads {α : Type} (read : Bytes → Except ReadFault α × Bytes) :
    Bytes → List (α × Bytes) → ReadFault → Bytes → Prop where
  | failed {input left : Bytes} {fault : ReadFault} (stops : read input = (.error fault, left)) :
      Reads read input [] fault left
  | read {input rest left : Bytes} {value : α} {values : List (α × Bytes)} {fault : ReadFault}
      (first : read input = (.ok value, rest)) (later : Reads read rest values fault left) :
      Reads read input ((value, rest) :: values) fault left

def unread {α : Type} : Bytes → List (α × Bytes) → Bytes
  | input, [] => input
  | _, (_, rest) :: values => unread rest values

namespace Reads

variable {α : Type} {read : Bytes → Except ReadFault α × Bytes} {input left : Bytes}
  {values : List (α × Bytes)} {fault : ReadFault}

theorem readUntilFault_eq (reads : Reads read input values fault left)
    (shrinks : ∀ {input rest value}, read input = (.ok value, rest) → rest.length < input.length) :
    readUntilFault read input = (values, fault, left) := by
  -- No read runs out of fuel, as each one that succeeds leaves fewer bytes.
  have enough (fuel : Nat) (more : input.length < fuel) :
      readUntilFault.go read fuel input = (values, fault, left) := by
    induction reads generalizing fuel with
    | failed stops =>
      cases fuel with
      | zero => omega
      | succ fuel => simp [readUntilFault.go, stops]
    | read first _ ih =>
      cases fuel with
      | zero => omega
      | succ fuel =>
        have shorter := shrinks first
        have rest := ih fuel (by omega)
        simp [readUntilFault.go, first, rest]
  exact enough _ (Nat.lt_succ_self _)

end Reads

theorem Header.read_encode_append (header : Header) (rest : Bytes) :
    read (header.encode ++ rest) = (.ok header, rest) := by
  rw [encode_eq, read, ← map_type_scalars header, Wire.readScalars_encode_append]
  rfl

theorem Header.read_short {bytes : Bytes} (short : bytes.length < headerSize) :
    read bytes = (.error .endInHeader, []) := by
  unfold read
  cases found : Wire.readScalars fields bytes with
  | mk result rest =>
    cases result with
    | none =>
      obtain ⟨_, rfl⟩ := Wire.readScalars_eq_none found
      rfl
    | some scalars =>
      obtain ⟨types, rfl⟩ := Wire.encode_of_readScalars found
      have total : Wire.totalSize fields = headerSize := rfl
      simp only [List.length_append, Wire.length_encodeScalars, types, total] at short
      omega

namespace Packet

theorem read_encode_append (header : Header) (rest : Bytes) :
    read (header.encode ++ rest) =
      if header.size.toNat < headerSize then (.error (.sizeTooSmall header.size), rest)
      else match splitExactly (header.size.toNat - headerSize) rest with
        | none => (.error .endInPayload, [])
        | some (payload, rest) => (.ok { header with payload }, rest) := by
  cases split : splitExactly (header.size.toNat - headerSize) rest <;>
    simp [read, Header.read_encode_append, split]

theorem read_incomplete {bytes : Bytes} (short : Incomplete bytes) :
    ∃ fault, read bytes = (.error fault, []) ∧ fault.toFault.kind = .unexpectedEnd := by
  rcases short with tooShort | ⟨header, rest, rfl, large, short⟩
  next => exact ⟨.endInHeader, by rw [read, Header.read_short tooShort], rfl⟩
  next =>
    rw [List.length_append, Header.length_encode] at short
    have missing : splitExactly (header.size.toNat - headerSize) rest = none :=
      splitExactly_eq_none.mpr (by omega)
    exact ⟨.endInPayload, by rw [read_encode_append, if_neg (by omega), missing], rfl⟩

theorem read_malformed (header : Header) (rest : Bytes) (small : header.size.toNat < headerSize) :
    read (header.encode ++ rest) = (.error (.sizeTooSmall header.size), rest) := by
  rw [read_encode_append, if_pos small]

theorem read_packet (packet : Packet) (rest : Bytes) (exact : packet.Exact) :
    read (packet.serialize ++ rest) = (.ok packet, rest) := by
  have size : packet.size.toNat = headerSize + packet.payload.length := exact
  have split : splitExactly (packet.size.toNat - headerSize) (packet.payload ++ rest) =
      some (packet.payload, rest) := splitExactly_eq_some.mpr ⟨by omega, rfl⟩
  rw [serialize_append, read_encode_append, exact.header_eq]
  simp only [split]
  rw [if_neg (by omega)]

theorem read_eq_ok {packet : Packet} {input rest : Bytes} :
    read input = (.ok packet, rest) ↔ packet.Exact ∧ input = packet.serialize ++ rest := by
  constructor
  next =>
    intro found
    cases front input with
    | incomplete short =>
      obtain ⟨fault, stops, _⟩ := read_incomplete short
      simp [stops] at found
    | malformed header rest small => simp [read_malformed header rest small] at found
    | packet packet rest exact =>
      rw [read_packet packet rest exact] at found
      simp only [Prod.mk.injEq, Except.ok.injEq] at found
      obtain ⟨rfl, rfl⟩ := found
      exact ⟨exact, rfl⟩
  next =>
    rintro ⟨exact, rfl⟩
    exact read_packet packet rest exact

end Packet

namespace Framing

variable {bytes left : Bytes} {packets : List Packet} {outcome : Extraction}

theorem exists_reads (framing : Framing bytes packets outcome left) :
    ∃ values fault after, Reads Packet.read bytes values fault after ∧
      values.map Prod.fst = packets ∧ left = unread bytes values ∧
      ((outcome = .incomplete ∧ after = [] ∧ fault.toFault.kind = .unexpectedEnd) ∨
        ∃ header : Header, outcome = .malformed header.size ∧ left = header.encode ++ after ∧
          fault = .sizeTooSmall header.size) := by
  induction framing with
  | incomplete short =>
    obtain ⟨fault, stops, kind⟩ := Packet.read_incomplete short
    exact ⟨[], fault, [], .failed stops, rfl, rfl, .inl ⟨rfl, rfl, kind⟩⟩
  | @malformed header rest small =>
    have stops := Packet.read_malformed header rest small
    exact ⟨[], _, rest, .failed stops, rfl, rfl, .inr ⟨header, rfl, rfl, rfl⟩⟩
  | packet exact _ ih =>
    obtain ⟨values, fault, after, reads, rfl, rfl, stops⟩ := ih
    exact ⟨_, fault, after, .read (Packet.read_packet _ _ exact) reads, rfl, rfl, stops⟩

end Framing

theorem Packet.readAll_eq {input left : Bytes} {values : List (Packet × Bytes)} {fault : ReadFault}
    (reads : Reads Packet.read input values fault left) :
    Packet.readAll input = (values, fault, left) :=
  reads.readUntilFault_eq fun {input rest packet} found => by
    obtain ⟨_, rfl⟩ := Packet.read_eq_ok.mp found
    have positive := packet.wireSize_pos
    rw [List.length_append, Packet.length_serialize]
    omega

theorem reading_agrees_with_extraction (bytes : Bytes) :
    let (values, fault, after) := Packet.readAll bytes
    let (packets, outcome, last) := (Reassembly.ingest {} bytes).extractAll
    -- The reads go on until the first that fails.
    Reads Packet.read bytes values fault after ∧
    values.map Prod.fst = packets ∧
    (∀ size, fault = .sizeTooSmall size ↔ outcome = .malformed size) ∧
    (fault.toFault.kind = .invalidData ↔ ∃ size, outcome = .malformed size) ∧
    (fault.toFault.kind = .unexpectedEnd ↔ outcome = .incomplete) ∧
    -- The failing read starts with what stays in the buffer.
    last.queue.bytes = unread bytes values ∧
    (outcome = .incomplete → after = []) ∧
    (∀ size, outcome = .malformed size →
      ∃ header : Header, header.size = size ∧ last.queue.bytes = header.encode ++ after) := by
  obtain ⟨packets, outcome, left, framing⟩ := Framing.exists_framing bytes
  obtain ⟨values, fault, after, reads, rfl, rfl, stops⟩ := framing.exists_reads
  have extracted : (Reassembly.ingest {} bytes).extractAll = _ := framing.extractAll_eq
  rw [Packet.readAll_eq reads, extracted]
  refine ⟨reads, rfl, ?_⟩
  rcases stops with ⟨rfl, rfl, kind⟩ | ⟨header, rfl, begins, rfl⟩
  next =>
    have other (size : UInt32) : fault ≠ .sizeTooSmall size := by
      rintro rfl
      simp [ReadFault.toFault] at kind
    simp [kind, other]
  next =>
    simp only [begins, ReadFault.sizeTooSmall.injEq, Extraction.malformed.injEq]
    simpa [ReadFault.toFault] using ⟨header, rfl, rfl⟩

end TpmRelay
