import TpmRelay.Proofs.Capture.Numbering
import TpmRelay.Proofs.Wire.Writing

set_option autoImplicit false

namespace TpmRelay

namespace Wire

def cut (limit : Option Nat) (bytes : Bytes) : Bytes :=
  match limit with
  | none => bytes
  | some limit => bytes.take limit

def Fits (limit : Option Nat) (bytes : Bytes) : Prop :=
  ∀ room ∈ limit, bytes.length ≤ room

variable {limit : Option Nat} {first second : Bytes}

theorem cut_of_fits (fits : Fits limit first) : cut limit first = first := by
  cases limit with
  | none => rfl
  | some room => exact List.take_of_length_le (fits room rfl)

theorem cut_append (fits : Fits limit first) :
    cut limit (first ++ second) = first ++ cut (limit.map (· - first.length)) second := by
  cases limit with
  | none => rfl
  | some room => rw [cut, List.take_append, List.take_of_length_le (fits room rfl)]; rfl

theorem Fits.left (fits : Fits limit (first ++ second)) : Fits limit first := by
  intro room member
  have whole := fits room member
  rw [List.length_append] at whole
  omega

theorem exists_of_not_fits (exceeds : ¬ Fits limit first) :
    ∃ room, limit = some room ∧ room < first.length := by
  cases limit with
  | none => exact absurd nofun exceeds
  | some room => exact ⟨room, rfl, by simpa [Fits] using exceeds⟩

theorem cut_over (exceeds : ¬ Fits limit first) : cut limit (first ++ second) = cut limit first := by
  obtain ⟨room, rfl, more⟩ := exists_of_not_fits exceeds
  exact List.take_append_of_le_length (Nat.le_of_lt more)

namespace Sink

variable {sink : Sink} {bytes : Bytes}

theorem write_of_fits (fits : Fits sink.limit (sink.accepted ++ bytes)) :
    sink.write bytes = (.ok (), { sink with accepted := sink.accepted ++ bytes }) := by
  obtain ⟨limit, flushFault, accepted⟩ := sink
  cases limit with
  | none => rfl
  | some room =>
    have whole : (accepted ++ bytes).length ≤ room := fits room rfl
    rw [List.length_append] at whole
    have all : bytes.take (room - accepted.length) = bytes := List.take_of_length_le (by omega)
    simp only [write, all, if_true]

theorem write_of_not_fits (within : Fits sink.limit sink.accepted)
    (exceeds : ¬ Fits sink.limit (sink.accepted ++ bytes)) :
    sink.write bytes =
      (.error full, { sink with accepted := cut sink.limit (sink.accepted ++ bytes) }) := by
  obtain ⟨limit, flushFault, accepted⟩ := sink
  obtain ⟨room, rfl, more⟩ := exists_of_not_fits exceeds
  have room' : accepted.length ≤ room := within room rfl
  have more : room < accepted.length + bytes.length := by simpa using more
  have short : ¬ (bytes.take (room - accepted.length)).length = bytes.length := by
    rw [List.length_take]
    omega
  simp only [write, if_neg short, cut_append within]
  rfl

theorem write_of_full {room : Nat} (limit : sink.limit = some room)
    (full : sink.accepted.length = room) (some' : bytes ≠ []) :
    sink.write bytes = (.error Sink.full, sink) := by
  have length := List.length_pos_iff.mpr some'
  have within : Fits sink.limit sink.accepted := by simp [Fits, limit, full]
  have exceeds : ¬ Fits sink.limit (sink.accepted ++ bytes) := by
    simp only [Fits, limit, Option.mem_some, List.length_append, forall_eq']
    omega
  have same : cut sink.limit (sink.accepted ++ bytes) = sink.accepted := by
    rw [limit, cut, List.take_left' full]
  rw [write_of_not_fits within exceeds, same]

end Sink

end Wire

namespace Capture

open Wire

/-- The records that stand for the chunks in a capture file, after its header. -/
def recordBytes (chunks : List Chunk) : Bytes :=
  Record.encodeAll ((Flows.start.entries (chunks.flatMap Chunk.pieces)).map (·.record))

theorem Chunk.maxPayload_pos : 0 < UdpFlow.maxPayload := by decide

theorem Chunk.pieces_of_empty {chunk : Chunk} (empty : chunk.payload = []) : chunk.pieces = [] := by
  rw [Chunk.pieces, empty, chunksOf_nil, List.map_nil]

namespace Recorder

variable (recorder : Recorder)

theorem writeDatagram_eq {piece : Chunk} (fits : piece.payload.length ≤ UdpFlow.maxPayload) :
    recorder.writeDatagram piece.direction piece.time piece.payload =
      match recorder.sink.write (Flows.entry recorder.flows piece).record.encode with
      | (.ok (), sink) => (.ok (), ⟨sink, Flows.advance recorder.flows piece, recorder.records + 1⟩)
      | (.error fault, sink) =>
        (.error fault, ⟨sink, Flows.advance recorder.flows piece, recorder.records⟩) := by
  simp only [writeDatagram, NumberedFlow.generate, if_neg (Nat.not_lt_of_le fits),
    Wire.Value.write_eq]
  rfl

def append (pieces : List Chunk) : Recorder where
  sink :=
    { recorder.sink with
      accepted := recorder.sink.accepted ++
        Record.encodeAll ((Flows.entries recorder.flows pieces).map (·.record)) }
  flows := Flows.advanceAll recorder.flows pieces
  records := recorder.records + pieces.length

theorem append_nil : recorder.append [] = recorder := by
  simp [append, Flows.entries, Flows.advanceAll, Record.encodeAll]

theorem append_append (first second : List Chunk) :
    (recorder.append first).append second = recorder.append (first ++ second) := by
  simp [append, Flows.entries_append, Flows.advanceAll, Nat.add_assoc]

variable {recorder}

theorem append_cons (piece : Chunk) (pieces : List Chunk) :
    recorder.append (piece :: pieces) = (recorder.append [piece]).append pieces := by
  rw [append_append, List.singleton_append]

theorem accepted_append (recorder : Recorder) (first second : List Chunk) :
    ∃ more, (recorder.append (first ++ second)).sink.accepted =
      (recorder.append first).sink.accepted ++ more := by
  rw [← append_append]
  exact ⟨_, rfl⟩

theorem writeDatagram_of_fits {piece : Chunk} (size : piece.payload.length ≤ UdpFlow.maxPayload)
    (fits : Fits recorder.sink.limit (recorder.append [piece]).sink.accepted) :
    recorder.writeDatagram piece.direction piece.time piece.payload =
      (.ok (), recorder.append [piece]) := by
  have bytes : (recorder.append [piece]).sink.accepted =
      recorder.sink.accepted ++ (Flows.entry recorder.flows piece).record.encode := by
    simp [append, Flows.entries, Record.encodeAll]
  rw [bytes] at fits
  rw [writeDatagram_eq _ size, Sink.write_of_fits fits, ← bytes]
  rfl

variable {piece : Chunk} {pieces more : List Chunk} {last : Recorder}

structure Overran (recorder : Recorder) (pieces : List Chunk) (last : Recorder) : Prop where
  exceeds : ¬ Fits recorder.sink.limit (recorder.append pieces).sink.accepted
  limit : last.sink.limit = recorder.sink.limit
  accepted : last.sink.accepted = cut recorder.sink.limit (recorder.append pieces).sink.accepted
  records : ∃ whole next rest, pieces = whole ++ next :: rest ∧
    last.records = recorder.records + whole.length ∧
    Fits recorder.sink.limit (recorder.append whole).sink.accepted ∧
    ¬ Fits recorder.sink.limit (recorder.append (whole ++ [next])).sink.accepted

theorem Overran.extend (overran : Overran recorder pieces last) :
    Overran recorder (pieces ++ more) last := by
  obtain ⟨later, longer⟩ := recorder.accepted_append pieces more
  obtain ⟨whole, next, rest, split, counted, fits, beyond⟩ := overran.records
  refine ⟨?_, overran.limit, ?_, whole, next, rest ++ more, by simp [split], counted, fits, beyond⟩
  next =>
    rw [longer]
    exact fun fits => overran.exceeds fits.left
  next => rw [longer, cut_over overran.exceeds, overran.accepted]

theorem Overran.after (overran : Overran (recorder.append pieces) more last) :
    Overran recorder (pieces ++ more) last := by
  obtain ⟨exceeds, limit, accepted, whole, next, rest, rfl, counted, fits, beyond⟩ := overran
  rw [append_append] at exceeds accepted fits beyond
  refine ⟨exceeds, limit, accepted, pieces ++ whole, next, rest, by simp, ?_, fits, ?_⟩
  next =>
    rw [counted, List.length_append, append, Nat.add_assoc]
  next => rwa [List.append_assoc]

theorem writeDatagram_of_not_fits (size : piece.payload.length ≤ UdpFlow.maxPayload)
    (within : Fits recorder.sink.limit recorder.sink.accepted)
    (exceeds : ¬ Fits recorder.sink.limit (recorder.append [piece]).sink.accepted) :
    ∃ last, recorder.writeDatagram piece.direction piece.time piece.payload =
        (.error Sink.full, last) ∧ Overran recorder [piece] last := by
  have bytes : (recorder.append [piece]).sink.accepted =
      recorder.sink.accepted ++ (Flows.entry recorder.flows piece).record.encode := by
    simp [append, Flows.entries, Record.encodeAll]
  have beyond := exceeds
  rw [bytes] at beyond
  rw [writeDatagram_eq _ size, Sink.write_of_not_fits within beyond, ← bytes]
  exact ⟨_, rfl, exceeds, rfl, rfl, [], piece, [], rfl, rfl, by rwa [append_nil], exceeds⟩

section Pieces

variable {direction : Direction} {time : Timestamp} {payloads : List Bytes}

theorem writePieces_of_fits (sizes : ∀ payload ∈ payloads, payload.length ≤ UdpFlow.maxPayload)
    (fits : Fits recorder.sink.limit
      (recorder.append (payloads.map fun payload => ⟨direction, time, payload⟩)).sink.accepted) :
    writePieces direction time payloads recorder =
      (.ok (), recorder.append (payloads.map fun payload => ⟨direction, time, payload⟩)) := by
  induction payloads generalizing recorder with
  | nil => rw [writePieces, List.map_nil, append_nil]
  | cons payload payloads ih =>
    obtain ⟨size, sizes⟩ := List.forall_mem_cons.mp sizes
    rw [List.map_cons, append_cons] at fits ⊢
    have first : recorder.writeDatagram direction time payload =
        (.ok (), recorder.append [⟨direction, time, payload⟩]) :=
      writeDatagram_of_fits size fits.left
    simp only [writePieces, first]
    exact ih sizes fits

theorem writePieces_of_not_fits
    (sizes : ∀ payload ∈ payloads, payload.length ≤ UdpFlow.maxPayload)
    (within : Fits recorder.sink.limit recorder.sink.accepted)
    (exceeds : ¬ Fits recorder.sink.limit
      (recorder.append (payloads.map fun payload => ⟨direction, time, payload⟩)).sink.accepted) :
    ∃ last, writePieces direction time payloads recorder = (.error Sink.full, last) ∧
      Overran recorder (payloads.map fun payload => ⟨direction, time, payload⟩) last := by
  -- By the pieces: either the first one is over the limit, or a later one is.
  induction payloads generalizing recorder with
  | nil =>
    rw [List.map_nil, append_nil] at exceeds
    exact absurd within exceeds
  | cons payload payloads ih =>
    obtain ⟨size, sizes⟩ := List.forall_mem_cons.mp sizes
    rw [List.map_cons] at exceeds ⊢
    by_cases first : Fits recorder.sink.limit
        (recorder.append [⟨direction, time, payload⟩]).sink.accepted
    next =>
      rw [append_cons] at exceeds
      have written : recorder.writeDatagram direction time payload =
          (.ok (), recorder.append [⟨direction, time, payload⟩]) :=
        writeDatagram_of_fits size first
      simp only [writePieces, written]
      obtain ⟨last, failed, overran⟩ : ∃ last, writePieces direction time payloads
          (recorder.append [⟨direction, time, payload⟩]) = (.error Sink.full, last) ∧
            (recorder.append [⟨direction, time, payload⟩]).Overran _ last :=
        ih sizes first exceeds
      exact ⟨last, failed, overran.after⟩
    next =>
      obtain ⟨last, written, overran⟩ : ∃ last,
          recorder.writeDatagram direction time payload = (.error Sink.full, last) ∧
            Overran recorder [⟨direction, time, payload⟩] last :=
        writeDatagram_of_not_fits size within first
      refine ⟨last, ?_, overran.extend⟩
      simp only [writePieces, written]

end Pieces

theorem write_of_fits {chunk : Chunk}
    (fits : Fits recorder.sink.limit (recorder.append chunk.pieces).sink.accepted) :
    recorder.write chunk = (.ok (), recorder.append chunk.pieces) :=
  writePieces_of_fits (fun _ member => (mem_chunksOf Chunk.maxPayload_pos member).2) fits

theorem write_of_not_fits {chunk : Chunk} (within : Fits recorder.sink.limit recorder.sink.accepted)
    (exceeds : ¬ Fits recorder.sink.limit (recorder.append chunk.pieces).sink.accepted) :
    ∃ last, recorder.write chunk = (.error Sink.full, last) ∧
      Overran recorder chunk.pieces last :=
  writePieces_of_not_fits (fun _ member => (mem_chunksOf Chunk.maxPayload_pos member).2) within exceeds

theorem create_eq_ok {limit : Option Nat} {flushFault : Option Fault} {header : FileHeader}
    (created : create { limit, flushFault } header = (.ok (), recorder)) :
    recorder = ⟨{ limit, flushFault, accepted := header.encode }, Flows.start, 0⟩ ∧
      Fits limit header.encode := by
  have empty : Fits limit [] := fun _ _ => Nat.zero_le _
  simp only [create, Value.write_eq] at created
  by_cases fits : Fits limit header.encode
  next =>
    rw [Sink.write_of_fits fits] at created
    exact ⟨(Prod.mk.inj created).2.symm, fits⟩
  next =>
    rw [Sink.write_of_not_fits empty fits] at created
    cases created

end Recorder

end Capture

end TpmRelay
