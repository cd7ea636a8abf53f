import Mathlib.Data.List.Infix
import TpmRelay.Proofs.Packet.Layout
import TpmRelay.Reassembly

set_option autoImplicit false

namespace TpmRelay

/-- Too few bytes for a header, or for the size that the header declares. -/
def Incomplete (bytes : Bytes) : Prop :=
  bytes.length < headerSize ∨
    ∃ (header : Header) (rest : Bytes), bytes = header.encode ++ rest ∧
      headerSize ≤ header.size.toNat ∧ bytes.length < header.size.toNat

inductive Front : Bytes → Prop where
  | incomplete {bytes : Bytes} (short : Incomplete bytes) : Front bytes
  | malformed (header : Header) (rest : Bytes) (small : header.size.toNat < headerSize) :
      Front (header.encode ++ rest)
  | packet (packet : Packet) (rest : Bytes) (exact : packet.Exact) : Front (packet.serialize ++ rest)

theorem front (bytes : Bytes) : Front bytes := by
  by_cases enough : headerSize ≤ bytes.length
  next =>
    -- Any ten bytes are a header, so only its size decides.
    obtain ⟨header, rest, rfl⟩ := Header.exists_encode_append enough
    by_cases small : header.size.toNat < headerSize
    next => exact .malformed header rest small
    next =>
      cases split : splitExactly (header.size.toNat - headerSize) rest with
      | none =>
        have short := splitExactly_eq_none.mp split
        refine .incomplete (.inr ⟨header, rest, rfl, by omega, ?_⟩)
        simp only [List.length_append, Header.length_encode]
        omega
      | some pieces =>
        obtain ⟨payload, left⟩ := pieces
        obtain ⟨size, rfl⟩ := splitExactly_eq_some.mp split
        let packet : Packet := { header with payload }
        have exact : packet.Exact := by
          simp only [Packet.Exact, Packet.wireSize, packet]
          omega
        have whole := Front.packet packet left exact
        rwa [Packet.serialize_append, exact.header_eq] at whole
  next => exact .incomplete (.inl (by omega))

namespace Reassembly

theorem extract_incomplete {bytes : Bytes} (short : Incomplete bytes) :
    extract ⟨⟨bytes⟩⟩ = (.incomplete, ⟨⟨bytes⟩⟩) := by
  rcases short with tooShort | ⟨header, rest, begins, large, short⟩
  next =>
    have missing := splitExactly_eq_none.mpr tooShort
    simp [extract, ByteQueue.peek, ByteQueue.pop, missing, Except.map]
  next =>
    have missing := splitExactly_eq_none.mpr short
    have found : splitExactly headerSize bytes = some (header.encode, rest) :=
      splitExactly_eq_some.mpr ⟨header.length_encode, begins⟩
    have parsed : Header.parse? header.encode = some header := by
      simpa using header.parse?_encode_append []
    simp [extract, ByteQueue.peek, ByteQueue.pop, found, missing, Except.map, parsed,
      Nat.not_lt.mpr large]

theorem extract_malformed (header : Header) (rest : Bytes)
    (small : header.size.toNat < headerSize) :
    extract ⟨⟨header.encode ++ rest⟩⟩ = (.malformed header.size, ⟨⟨header.encode ++ rest⟩⟩) := by
  have found : splitExactly headerSize (header.encode ++ rest) = some (header.encode, rest) :=
    splitExactly_eq_some.mpr ⟨header.length_encode, rfl⟩
  have parsed : Header.parse? header.encode = some header := by
    simpa using header.parse?_encode_append []
  simp [extract, ByteQueue.peek, ByteQueue.pop, found, Except.map, parsed, small]

theorem extract_packet (packet : Packet) (rest : Bytes) (exact : packet.Exact) :
    extract ⟨⟨packet.serialize ++ rest⟩⟩ = (.packet packet, ⟨⟨rest⟩⟩) := by
  have front : splitExactly headerSize (packet.serialize ++ rest) =
      some (packet.header.encode, packet.payload ++ rest) :=
    splitExactly_eq_some.mpr ⟨packet.header.length_encode, packet.serialize_append rest⟩
  have parsed : Header.parse? packet.header.encode = some packet.header := by
    simpa using packet.header.parse?_encode_append []
  have whole : splitExactly packet.size.toNat (packet.serialize ++ rest) =
      some (packet.serialize, rest) :=
    splitExactly_eq_some.mpr ⟨by rw [exact, Packet.length_serialize], rfl⟩
  have large : ¬ packet.size.toNat < headerSize := by
    rw [exact]
    exact Nat.not_lt.mpr packet.headerSize_le_wireSize
  have payload : packet.serialize.drop headerSize = packet.payload := by
    rw [Packet.serialize, ← packet.header.length_encode, List.drop_left]
  rw [exact.header_eq] at front parsed
  simp [extract, ByteQueue.peek, ByteQueue.pop, front, Except.map, parsed, large, whole, payload]

end Reassembly

/-- The packets of a byte string, why no further one follows them, and the bytes that are left. -/
inductive Framing : Bytes → List Packet → Extraction → Bytes → Prop where
  | incomplete {bytes : Bytes} (short : Incomplete bytes) : Framing bytes [] .incomplete bytes
  | malformed {header : Header} {rest : Bytes} (small : header.size.toNat < headerSize) :
      Framing (header.encode ++ rest) [] (.malformed header.size) (header.encode ++ rest)
  | packet {packet : Packet} {rest left : Bytes} {packets : List Packet} {outcome : Extraction}
      (exact : packet.Exact) (later : Framing rest packets outcome left) :
      Framing (packet.serialize ++ rest) (packet :: packets) outcome left

def serializeAll (packets : List Packet) : Bytes :=
  packets.flatMap Packet.serialize

@[simp] theorem serializeAll_nil : serializeAll [] = [] := rfl

@[simp] theorem serializeAll_cons (packet : Packet) (packets : List Packet) :
    serializeAll (packet :: packets) = packet.serialize ++ serializeAll packets := rfl

@[simp] theorem serializeAll_append (first second : List Packet) :
    serializeAll (first ++ second) = serializeAll first ++ serializeAll second :=
  List.flatMap_append

theorem serializeAll_mono {front packets : List Packet} (first : front <+: packets) :
    serializeAll front <+: serializeAll packets :=
  first.flatMap Packet.serialize

namespace Framing

variable {bytes left : Bytes} {packets : List Packet} {outcome : Extraction}

theorem exists_framing (bytes : Bytes) :
    ∃ packets outcome left, Framing bytes packets outcome left := by
  -- By the length of the bytes: a packet takes up at least a header.
  induction measured : bytes.length using Nat.strongRecOn generalizing bytes with
  | ind size ih =>
    cases front bytes with
    | incomplete short => exact ⟨_, _, _, .incomplete short⟩
    | malformed header rest small => exact ⟨_, _, _, .malformed small⟩
    | packet packet rest exact =>
      have shorter : rest.length < size := by
        have positive := packet.wireSize_pos
        rw [← measured, List.length_append, Packet.length_serialize]
        omega
      obtain ⟨packets, outcome, left, later⟩ := ih rest.length shorter rest rfl
      exact ⟨_, _, _, .packet exact later⟩

theorem bytes_eq (framing : Framing bytes packets outcome left) :
    bytes = serializeAll packets ++ left := by
  induction framing with
  | incomplete | malformed => rfl
  | packet _ _ ih => rw [serializeAll_cons, List.append_assoc, ← ih]

theorem exact (framing : Framing bytes packets outcome left) : ∀ packet ∈ packets, packet.Exact := by
  induction framing with
  | incomplete | malformed => simp
  | packet first _ ih => simpa using ⟨first, ih⟩

theorem length_packets_le (framing : Framing bytes packets outcome left) :
    packets.length ≤ bytes.length / headerSize := by
  rw [Nat.le_div_iff_mul_le (by decide)]
  induction framing with
  | incomplete | malformed => simp
  | @packet packet _ _ _ _ _ _ ih =>
    have size := packet.headerSize_le_wireSize
    simp only [List.length_cons, List.length_append, Packet.length_serialize, Nat.succ_mul]
    omega

theorem extract_left (framing : Framing bytes packets outcome left) :
    Reassembly.extract ⟨⟨left⟩⟩ = (outcome, ⟨⟨left⟩⟩) := by
  induction framing with
  | incomplete short => exact Reassembly.extract_incomplete short
  | malformed small => exact Reassembly.extract_malformed _ _ small
  | packet _ _ ih => exact ih

theorem outcome_ne_packet (framing : Framing bytes packets outcome left) (packet : Packet) :
    outcome ≠ .packet packet := by
  induction framing with
  | incomplete | malformed => simp
  | packet _ _ ih => exact ih

theorem go_eq (framing : Framing bytes packets outcome left) (fuel : Nat)
    (enough : packets.length < fuel) :
    Reassembly.extractAll.go fuel ⟨⟨bytes⟩⟩ = (packets, outcome, ⟨⟨left⟩⟩) := by
  -- Each packet takes one unit of fuel, and the look that finds no packet takes one more.
  induction framing generalizing fuel with
  | incomplete short =>
    cases fuel with
    | zero => simp at enough
    | succ fuel => simp [Reassembly.extractAll.go, Reassembly.extract_incomplete short]
  | malformed small =>
    cases fuel with
    | zero => simp at enough
    | succ fuel => simp [Reassembly.extractAll.go, Reassembly.extract_malformed _ _ small]
  | packet exact _ ih =>
    cases fuel with
    | zero => simp at enough
    | succ fuel =>
      have rest := ih fuel (by simpa using enough)
      simp [Reassembly.extractAll.go, Reassembly.extract_packet _ _ exact, rest]

theorem extractAll_eq (framing : Framing bytes packets outcome left) :
    Reassembly.extractAll ⟨⟨bytes⟩⟩ = (packets, outcome, ⟨⟨left⟩⟩) :=
  framing.go_eq _ (Nat.lt_succ_of_le framing.length_packets_le)

theorem unique {packets' : List Packet} {outcome' : Extraction} {left' : Bytes}
    (first : Framing bytes packets outcome left) (second : Framing bytes packets' outcome' left') :
    packets = packets' ∧ outcome = outcome' ∧ left = left' := by
  have same := first.extractAll_eq.symm.trans second.extractAll_eq
  simpa using same

theorem of_packets (front : List Packet) (exact : ∀ packet ∈ front, packet.Exact)
    (framing : Framing bytes packets outcome left) :
    Framing (serializeAll front ++ bytes) (front ++ packets) outcome left := by
  induction front with
  | nil => exact framing
  | cons packet front ih =>
    have later := ih fun other member => exact other (List.mem_cons_of_mem packet member)
    rw [serializeAll_cons, List.append_assoc]
    exact .packet (exact packet List.mem_cons_self) later

theorem prefix_of_packets {front : List Packet} (framing : Framing bytes packets outcome left)
    (exact : ∀ packet ∈ front, packet.Exact) (begins : serializeAll front <+: bytes) :
    front <+: packets := by
  obtain ⟨rest, rfl⟩ := begins
  obtain ⟨packets', outcome', left', later⟩ := exists_framing rest
  obtain ⟨rfl, _, _⟩ := (of_packets front exact later).unique framing
  exact List.prefix_append _ _

end Framing

theorem Reassembly.framing_extractAll (reassembly : Reassembly) :
    Framing reassembly.queue.bytes reassembly.extractAll.1 reassembly.extractAll.2.1
      reassembly.extractAll.2.2.queue.bytes := by
  obtain ⟨packets, outcome, left, framing⟩ := Framing.exists_framing reassembly.queue.bytes
  have same : reassembly.extractAll = (packets, outcome, ⟨⟨left⟩⟩) := framing.extractAll_eq
  rw [same]
  exact framing

end TpmRelay
