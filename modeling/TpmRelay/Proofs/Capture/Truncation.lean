import TpmRelay.Proofs.Capture.ReadBack

set_option autoImplicit false

namespace TpmRelay.Capture

open Wire

theorem Record.encode_ne_nil (record : Record) : record.encode ≠ [] := by
  have length := record.length_encode
  intro empty
  rw [empty, List.length_nil] at length
  omega

namespace Recorder

variable {first recorder last : Recorder} {pieces : List Chunk} {room : Nat}

theorem write_of_empty (recorder : Recorder) {chunk : Chunk} (empty : chunk.payload = []) :
    recorder.write chunk = (.ok (), recorder) := by
  rw [write, empty, chunksOf_nil, writePieces]

theorem write_of_full {chunk : Chunk} (limit : recorder.sink.limit = some room)
    (full : recorder.sink.accepted.length = room) (some' : chunk.payload ≠ []) :
    ∃ last, recorder.write chunk = (.error Sink.full, last) ∧ last.sink = recorder.sink ∧
      last.records = recorder.records := by
  let piece : Chunk := { chunk with payload := chunk.payload.take UdpFlow.maxPayload }
  have size : piece.payload.length ≤ UdpFlow.maxPayload := List.length_take_le ..
  have refused := Sink.write_of_full limit full
    (Flows.entry recorder.flows piece).record.encode_ne_nil
  have failed := recorder.writeDatagram_eq size
  rw [refused] at failed
  refine ⟨{ recorder with flows := Flows.advance recorder.flows piece }, ?_, rfl, rfl⟩
  rw [write, chunksOf_eq_cons Chunk.maxPayload_pos some', writePieces]
  simp only [piece] at failed
  rw [failed]

theorem Overran.full (overran : Overran first pieces last) :
    ∃ room, last.sink.limit = some room ∧ last.sink.accepted.length = room := by
  obtain ⟨room, limit, more⟩ := exists_of_not_fits overran.exceeds
  refine ⟨room, overran.limit.trans limit, ?_⟩
  rw [overran.accepted, limit, cut, List.length_take]
  omega

inductive Reached (first : Recorder) (pieces : List Chunk) : Recorder → Prop where
  | within (fits : Fits first.sink.limit (first.append pieces).sink.accepted) :
      Reached first pieces (first.append pieces)
  | beyond {last : Recorder} (overran : Overran first pieces last) : Reached first pieces last

theorem Reached.accepted (reached : Reached first pieces last) :
    last.sink.accepted = cut first.sink.limit (first.append pieces).sink.accepted := by
  cases reached with
  | within fits => exact (cut_of_fits fits).symm
  | beyond overran => exact overran.accepted

theorem Reached.records (reached : Reached first pieces last) :
    ∃ whole rest, pieces = whole ++ rest ∧ last.records = first.records + whole.length ∧
      Fits first.sink.limit (first.append whole).sink.accepted ∧
      ∀ next ∈ rest.head?, ¬ Fits first.sink.limit (first.append (whole ++ [next])).sink.accepted := by
  cases reached with
  | within fits => exact ⟨pieces, [], (List.append_nil _).symm, rfl, fits, nofun⟩
  | beyond overran =>
    obtain ⟨whole, next, rest, split, counted, fits, beyond⟩ := overran.records
    exact ⟨whole, next :: rest, split, counted, fits, by simpa using beyond⟩

def told (first : Recorder) (room : Nat) (pieces : List Chunk) (chunk : Chunk) :
    Except Fault Unit :=
  if chunk.payload = [] ∨ (first.append (pieces ++ chunk.pieces)).sink.accepted.length ≤ room then
    .ok ()
  else .error Sink.full

theorem fits_iff {bytes : Bytes} : Fits (some room) bytes ↔ bytes.length ≤ room := by
  simp [Fits]

theorem Reached.write (limit : first.sink.limit = some room)
    (reached : Reached first pieces recorder) (chunk : Chunk) :
    ∃ next, recorder.write chunk = (first.told room pieces chunk, next) ∧
      Reached first (pieces ++ chunk.pieces) next := by
  by_cases empty : chunk.payload = []
  next =>
    refine ⟨recorder, ?_, ?_⟩
    next => rw [write_of_empty recorder empty, told, if_pos (.inl empty)]
    next => rwa [Chunk.pieces_of_empty empty, List.append_nil]
  next =>
    by_cases more : Fits first.sink.limit (first.append (pieces ++ chunk.pieces)).sink.accepted
    next =>
      have ok : first.told room pieces chunk = .ok () :=
        if_pos (.inr (fits_iff.mp (limit ▸ more)))
      rw [ok]
      cases reached with
      | within fits =>
        rw [← append_append] at more
        refine ⟨_, write_of_fits more, ?_⟩
        rw [append_append] at more ⊢
        exact .within more
      | beyond overran => exact absurd more (overran.extend).exceeds
    next =>
      have failed : first.told room pieces chunk = .error Sink.full := by
        refine if_neg ?_
        rintro (none | fits)
        next => exact empty none
        next => exact more (limit ▸ fits_iff.mpr fits)
      rw [failed]
      cases reached with
      | within fits =>
        rw [← append_append] at more
        obtain ⟨last, written, overran⟩ : ∃ last,
            (first.append pieces).write chunk = (.error Sink.full, last) ∧
              (first.append pieces).Overran chunk.pieces last := write_of_not_fits fits more
        exact ⟨last, written, .beyond overran.after⟩
      | beyond overran =>
        obtain ⟨room, limited, full⟩ := overran.full
        obtain ⟨last, written, sink, records⟩ := write_of_full limited full empty
        have extended : first.Overran (pieces ++ chunk.pieces) recorder := overran.extend
        refine ⟨last, written, .beyond ⟨extended.exceeds, ?_, ?_, ?_⟩⟩
        next => rw [sink, extended.limit]
        next => rw [sink, extended.accepted]
        next => rw [records]; exact extended.records

theorem length_writeAll (recorder : Recorder) (chunks : List Chunk) :
    (recorder.writeAll chunks).1.length = chunks.length := by
  induction chunks generalizing recorder with
  | nil => rfl
  | cons chunk chunks ih => simp [Recorder.writeAll, ih]

theorem Reached.writeAll (limit : first.sink.limit = some room)
    (reached : Reached first pieces recorder) (chunks : List Chunk) :
    Reached first (pieces ++ chunks.flatMap Chunk.pieces) (recorder.writeAll chunks).2 ∧
      ∀ before chunk after, chunks = before ++ chunk :: after →
        (recorder.writeAll chunks).1[before.length]? =
          some (first.told room (pieces ++ before.flatMap Chunk.pieces) chunk) := by
  induction chunks generalizing pieces recorder with
  | nil =>
    rw [Recorder.writeAll, List.flatMap_nil, List.append_nil]
    exact ⟨reached, by simp⟩
  | cons chunk chunks ih =>
    obtain ⟨next, written, further⟩ := reached.write limit chunk
    obtain ⟨last, results⟩ := ih further
    rw [Recorder.writeAll, written]
    refine ⟨by simpa using last, fun before chunk' after split => ?_⟩
    cases before with
    | nil =>
      obtain ⟨rfl, rfl⟩ := List.cons_eq_cons.mp split
      simp
    | cons other before =>
      obtain ⟨rfl, later⟩ := List.cons_eq_cons.mp split
      simpa using results before chunk' after later

theorem create_limited (room : Nat) (flushFault : Option Fault) (header : FileHeader) :
    create { limit := some room, flushFault } header =
      (if 24 ≤ room then .ok () else .error Sink.full,
        ⟨{ limit := some room, flushFault, accepted := header.encode.take room }, Flows.start, 0⟩) := by
  have empty : Fits (some room) [] := fun _ _ => Nat.zero_le _
  rw [create, Value.write_eq, ← FileHeader.encode]
  by_cases fits : 24 ≤ room
  next =>
    have whole : Fits (some room) header.encode := by simpa [Fits] using fits
    rw [Sink.write_of_fits whole, if_pos fits, List.take_of_length_le (by simpa using fits)]
    rfl
  next =>
    have beyond : ¬ Fits (some room) header.encode := by simpa [Fits] using fits
    rw [Sink.write_of_not_fits empty beyond, if_neg fits]
    rfl

/-- What the same calls give where nothing fails. -/
def unlimited (flushFault : Option Fault) (header : FileHeader) (chunks : List Chunk) : Recorder :=
  ((create { flushFault } header).2.writeAll chunks).2

theorem unlimited_eq (flushFault : Option Fault) (header : FileHeader) (chunks : List Chunk) :
    unlimited flushFault header chunks =
      append ⟨{ flushFault, accepted := header.encode }, Flows.start, 0⟩
        (chunks.flatMap Chunk.pieces) := by
  have created : (create { flushFault } header).2 =
      ⟨{ flushFault, accepted := header.encode }, Flows.start, 0⟩ := by
    simp [create, Value.write_eq, FileHeader.encode, Flows.start]
  rw [unlimited, created, writeAll_unlimited rfl]

theorem accepted_unlimited (flushFault : Option Fault) (header : FileHeader)
    (chunks : List Chunk) :
    (unlimited flushFault header chunks).sink.accepted = header.encode ++ recordBytes chunks := by
  rw [unlimited_eq]
  rfl

theorem readRecords_recordBytes (chunks : List Chunk) :
    readRecords (recordBytes chunks) =
      ((Flows.start.entries (chunks.flatMap Chunk.pieces)).map (·.record), []) := by
  have sized := Flows.own_start.sized_groups chunks
  have all := readRecords_encodeAll sized (rfl : Record.read? [] = none)
  rwa [List.append_nil, Flows.flatten_groups] at all

theorem Reached.wholeRecords {flushFault : Option Fault} {header : FileHeader}
    (reached : Reached ⟨{ limit := some room, flushFault, accepted := header.encode },
      Flows.start, 0⟩ pieces last) :
    ∃ whole rest, (Flows.start.entries pieces).map (·.record) = whole ++ rest ∧
      last.records = whole.length ∧
      24 + (Record.encodeAll whole).length ≤ room ∧
      ∀ next ∈ rest.head?, room < 24 + (Record.encodeAll (whole ++ [next])).length := by
  obtain ⟨whole, rest, rfl, counted, fits, beyond⟩ := reached.records
  have size (written : List Chunk) :
      (append ⟨{ limit := some room, flushFault, accepted := header.encode }, Flows.start, 0⟩
        written).sink.accepted.length =
        24 + (Record.encodeAll ((Flows.start.entries written).map (·.record))).length := by
    rw [append, List.length_append, FileHeader.length_encode]
  refine ⟨_, _, by rw [Flows.entries_append, List.map_append], ?_, ?_, fun next first => ?_⟩
  next => simpa using counted
  next => rw [← size]; exact fits_iff.mp fits
  next =>
    cases rest with
    | nil => cases first
    | cons piece rest =>
      obtain rfl : _ = next := Option.some.inj first
      have exceeds := beyond piece rfl
      rw [fits_iff, size, Nat.not_le] at exceeds
      simpa [Flows.entries_append, Flows.entries] using exceeds

theorem limited_capture_is_exact_prefix (room : Nat) (flushFault : Option Fault)
    (header : FileHeader) (chunks : List Chunk) :
    let (created, recorder) := create { limit := some room, flushFault } header
    let (results, last) := recorder.writeAll chunks
    (∀ taken, (unlimited flushFault header taken).sink.accepted =
      header.encode ++ recordBytes taken) ∧
    created = (if 24 ≤ room then .ok () else .error Sink.full) ∧
    recorder.sink.accepted = (unlimited flushFault header []).sink.accepted.take room ∧
    (24 ≤ room →
      last.sink.accepted = (unlimited flushFault header chunks).sink.accepted.take room ∧
      results.length = chunks.length ∧
      -- A call is told that it failed just where not all of its bytes fit,
      (∀ before chunk after, chunks = before ++ chunk :: after →
        results[before.length]? = some
          (if chunk.payload = [] ∨
              (unlimited flushFault header (before ++ [chunk])).sink.accepted.length ≤ room then
            .ok ()
          else .error Sink.full)) ∧
      -- those records are counted that fit completely,
      (∃ whole rest,
        readRecords ((unlimited flushFault header chunks).sink.accepted.drop 24) =
          (whole ++ rest, []) ∧
        last.records = whole.length ∧
        24 + (Record.encodeAll whole).length ≤ room ∧
        ∀ next ∈ rest.head?, room < 24 + (Record.encodeAll (whole ++ [next])).length) ∧
      -- and a chunk without bytes is always written.
      ∀ chunk, chunk.payload = [] → last.write chunk = (.ok (), last)) := by
  rw [create_limited]
  refine ⟨accepted_unlimited flushFault header, rfl, ?_, fun enough => ?_⟩
  next => simp [accepted_unlimited, recordBytes, Record.encodeAll, Flows.entries]
  -- With room for the header the recorder begins like one without a limit.
  have whole : header.encode.take room = header.encode :=
    List.take_of_length_le (by simpa using enough)
  rw [whole]
  let first : Recorder :=
    ⟨{ limit := some room, flushFault, accepted := header.encode }, Flows.start, 0⟩
  have start : Reached first [] first := by
    have fits : Fits first.sink.limit (first.append []).sink.accepted := by
      rw [append_nil]
      exact fits_iff.mpr (by simpa [first] using enough)
    have within := Reached.within fits
    rwa [append_nil] at within
  obtain ⟨reached, results⟩ := start.writeAll rfl chunks
  rw [List.nil_append] at reached
  refine ⟨?_, ?_, fun before chunk after split => ?_, ?_, fun _ => write_of_empty _⟩
  next => rw [reached.accepted, accepted_unlimited]; rfl
  next => exact length_writeAll ..
  next =>
    rw [results before chunk after split, told, unlimited_eq, List.flatMap_append]
    simp [append, first]
  next =>
    obtain ⟨whole, rest, split, counted, fits, beyond⟩ := reached.wholeRecords
    refine ⟨whole, rest, ?_, counted, fits, beyond⟩
    rw [accepted_unlimited, List.drop_left' header.length_encode, readRecords_recordBytes, split]

end Recorder

end TpmRelay.Capture
