import TpmRelay.Proofs.Capture.Limit

set_option autoImplicit false

namespace TpmRelay.Capture

namespace Chunk

variable {chunk piece : Chunk}

theorem mem_pieces (member : piece ∈ chunk.pieces) :
    piece.direction = chunk.direction ∧ piece.time = chunk.time ∧
      piece.payload ≠ [] ∧ piece.payload.length ≤ UdpFlow.maxPayload := by
  obtain ⟨payload, part, rfl⟩ := List.mem_map.mp member
  exact ⟨rfl, rfl, mem_chunksOf maxPayload_pos part⟩

theorem payloads_pieces : chunk.pieces.flatMap (·.payload) = chunk.payload := by
  rw [pieces, List.flatMap_map]
  exact List.flatMap_id.trans (flatten_chunksOf maxPayload_pos chunk.payload)

theorem length_pieces : chunk.pieces.length = chunk.payload.length ⌈/⌉ UdpFlow.maxPayload := by
  rw [pieces, List.length_map, length_chunksOf maxPayload_pos]

end Chunk

namespace Recorder

variable (recorder : Recorder)

def writeAll : Recorder → List Chunk → List (Except Fault Unit) × Recorder
  | recorder, [] => ([], recorder)
  | recorder, chunk :: chunks =>
    let (result, recorder) := recorder.write chunk
    let (results, recorder) := recorder.writeAll chunks
    (result :: results, recorder)

variable {recorder} (unlimited : recorder.sink.limit = none)

include unlimited

theorem write_unlimited (chunk : Chunk) :
    recorder.write chunk = (.ok (), recorder.append chunk.pieces) :=
  write_of_fits fun _ limited => nomatch unlimited.symm.trans limited

theorem writeAll_unlimited (chunks : List Chunk) :
    recorder.writeAll chunks =
      (chunks.map fun _ => .ok (), recorder.append (chunks.flatMap Chunk.pieces)) := by
  induction chunks generalizing recorder with
  | nil => rw [writeAll, List.flatMap_nil, append_nil, List.map_nil]
  | cons chunk chunks ih =>
    rw [writeAll, write_unlimited unlimited]
    simp only
    rw [ih, append_append, List.map_cons, List.flatMap_cons]
    exact unlimited

end Recorder

namespace Flows

variable {flows : Flows} {piece : Chunk}

def groups : Flows → List Chunk → List (List Entry)
  | _, [] => []
  | flows, chunk :: chunks =>
    flows.entries chunk.pieces :: (flows.advanceAll chunk.pieces).groups chunks

theorem flatten_groups (chunks : List Chunk) :
    (flows.groups chunks).flatten = flows.entries (chunks.flatMap Chunk.pieces) := by
  induction chunks generalizing flows with
  | nil => rfl
  | cons chunk chunks ih =>
    rw [groups, List.flatten_cons, ih, List.flatMap_cons, entries_append]

theorem capturedLength_entry (fits : piece.payload.length ≤ UdpFlow.maxPayload) :
    (flows.entry piece).record.header.capturedLength.toNat = 28 + piece.payload.length := by
  have small : 28 + piece.payload.length < 2 ^ 32 := by
    simp only [UdpFlow.maxPayload] at fits
    omega
  have length := (flows.pick piece.direction).flow.length_datagram
    (flows.pick piece.direction).next piece.payload
  simp only [entry, RecordHeader.new, length, UdpFlow.overhead, UdpFlow.ipHeaderSize,
    UdpFlow.udpHeaderSize, UInt32.toNat_ofNat', Nat.mod_eq_of_lt small]

theorem sized_entry (fits : piece.payload.length ≤ UdpFlow.maxPayload) :
    (flows.entry piece).record.Sized := by
  rw [Record.Sized, capturedLength_entry fits]
  exact (flows.pick piece.direction).flow.length_datagram _ _

end Flows

/-- What the records of one chunk tell about it. -/
structure Tells (chunk : Chunk) (entries : List Entry) : Prop where
  count : entries.length = chunk.payload.length ⌈/⌉ 65507
  payload : entries.flatMap (·.segment.payload) = chunk.payload
  segment : ∀ entry ∈ entries, Segment.read? entry.record.datagram = some entry.segment
  direction : ∀ entry ∈ entries, entry.segment.direction? = some chunk.direction
  micros : ∀ entry ∈ entries, entry.record.header.micros.toNat < 1000000
  time : ∀ entry ∈ entries,
    entry.record.header.seconds.toNat * 1000000 + entry.record.header.micros.toNat =
      chunk.time.inNanos / 1000 % (2 ^ 32 * 1000000)
  fullLength : ∀ entry ∈ entries,
    entry.record.header.fullLength = entry.record.header.capturedLength
  length : ∀ entry ∈ entries,
    29 ≤ entry.record.header.capturedLength.toNat ∧
      entry.record.header.capturedLength.toNat ≤ 65535

namespace Flows

variable {flows : Flows}

theorem Own.tells (own : flows.Own) (chunk : Chunk) : Tells chunk (flows.entries chunk.pieces) := by
  -- Every entry is that of a piece, which has the direction and the time of the chunk.
  have each {entry : Entry} (member : entry ∈ flows.entries chunk.pieces) :
      ∃ (before : Flows) (piece : Chunk), piece ∈ chunk.pieces ∧ before.Own ∧
        entry = before.entry piece := mem_entries own member
  constructor
  next => rw [length_entries, Chunk.length_pieces]; rfl
  next => rw [payloads_entries, Chunk.payloads_pieces]
  next =>
    intro entry member
    obtain ⟨before, piece, part, -, rfl⟩ := each member
    exact UdpFlow.read?_datagram _ _ _ (Chunk.mem_pieces part).2.2.2
  next =>
    intro entry member
    obtain ⟨before, piece, part, own, rfl⟩ := each member
    rw [direction?_entry own, (Chunk.mem_pieces part).1]
  next =>
    intro entry member
    obtain ⟨before, piece, -, -, rfl⟩ := each member
    exact piece.time.parts.1
  next =>
    intro entry member
    obtain ⟨before, piece, part, -, rfl⟩ := each member
    rw [← (Chunk.mem_pieces part).2.1]
    exact piece.time.parts.2
  next =>
    intro entry member
    obtain ⟨before, piece, -, -, rfl⟩ := each member
    rfl
  next =>
    intro entry member
    obtain ⟨before, piece, part, -, rfl⟩ := each member
    obtain ⟨-, -, some, fits⟩ := Chunk.mem_pieces part
    have positive := List.length_pos_iff.mpr some
    rw [capturedLength_entry fits]
    simp only [UdpFlow.maxPayload, UdpFlow.overhead, UdpFlow.ipHeaderSize,
      UdpFlow.udpHeaderSize] at fits
    omega

theorem Own.forall₂_tells (own : flows.Own) (chunks : List Chunk) :
    List.Forall₂ Tells chunks (flows.groups chunks) := by
  induction chunks generalizing flows with
  | nil => exact .nil
  | cons chunk chunks ih => exact .cons (own.tells chunk) (ih own.advanceAll)

theorem Own.sized_groups (own : flows.Own) (chunks : List Chunk) :
    ∀ record ∈ (flows.groups chunks).flatten.map (·.record), record.Sized := by
  intro record member
  rw [flatten_groups] at member
  obtain ⟨entry, listed, rfl⟩ := List.mem_map.mp member
  obtain ⟨before, piece, among, -, rfl⟩ := mem_entries own listed
  obtain ⟨chunk, -, part⟩ := List.mem_flatMap.mp among
  exact sized_entry (Chunk.mem_pieces part).2.2.2

end Flows

theorem capture_reads_back (flushFault : Option Fault) (header : FileHeader)
    (chunks : List Chunk) :
    let (created, recorder) := Recorder.create { flushFault } header
    let (results, last) := recorder.writeAll chunks
    created = .ok () ∧
    results = chunks.map (fun _ => .ok ()) ∧
    ∃ body groups,
      last.sink.accepted.length = 24 + body.length ∧
      FileHeader.read? last.sink.accepted = some (header, body) ∧
      readRecords body = (groups.flatten.map Entry.record, []) ∧
      last.records = groups.flatten.length ∧
      List.Forall₂ Tells chunks groups ∧
      ∀ (direction : Direction) (k : Nat) (entry : Entry),
        (groups.flatten.filter (·.segment.direction? = some direction))[k]? = some entry →
          entry.segment.identification.toNat =
            (direction.flow.identification.toNat + k) % 65536 := by
  have created : Recorder.create { flushFault } header =
      (.ok (), ⟨{ flushFault, accepted := header.encode }, Flows.start, 0⟩) := by
    simp [Recorder.create, Wire.Value.write_eq, FileHeader.encode, Flows.start]
  rw [created]
  simp only [Recorder.writeAll_unlimited, Recorder.append]
  -- The groups are those of the numbering from the start; all that was put is their records.
  refine ⟨trivial, trivial,
    Record.encodeAll ((Flows.start.groups chunks).flatten.map (·.record)),
    Flows.start.groups chunks, ?_, ?_, ?_, ?_, Flows.own_start.forall₂_tells chunks, ?_⟩
  next => simp [Flows.flatten_groups]
  next => rw [← Flows.flatten_groups, FileHeader.read?_encode_append]
  next =>
    have nothing : Record.read? [] = none := rfl
    have all := readRecords_encodeAll (Flows.own_start.sized_groups chunks) nothing
    rwa [List.append_nil] at all
  next => simp [Flows.flatten_groups]
  next =>
    intro direction k entry found
    rw [Flows.flatten_groups] at found
    have numbered := Flows.identification_entries Flows.own_start found
    simpa [Flows.start, NumberedFlow.start] using numbered

end TpmRelay.Capture
