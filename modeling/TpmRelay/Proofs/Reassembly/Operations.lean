import TpmRelay.Proofs.Reassembly.Framing

set_option autoImplicit false

namespace TpmRelay

def Extraction.packets : Extraction → List Packet
  | .packet found => [found]
  | .incomplete | .malformed _ => []

def packetsOf (outcomes : List Extraction) : List Packet :=
  outcomes.flatMap Extraction.packets

@[simp] theorem packetsOf_nil : packetsOf [] = [] := rfl

@[simp] theorem packetsOf_cons (outcome : Extraction) (outcomes : List Extraction) :
    packetsOf (outcome :: outcomes) = outcome.packets ++ packetsOf outcomes := rfl

@[simp] theorem packetsOf_append (first second : List Extraction) :
    packetsOf (first ++ second) = packetsOf first ++ packetsOf second :=
  List.flatMap_append

namespace Reassembly

inductive Operation where
  | ingest (chunk : Bytes)
  | extract
  deriving DecidableEq, Repr

def perform (reassembly : Reassembly) : List Operation → List Extraction × Reassembly
  | [] => ([], reassembly)
  | .ingest chunk :: operations => (reassembly.ingest chunk).perform operations
  | .extract :: operations =>
    let (outcome, reassembly) := reassembly.extract
    let (outcomes, last) := reassembly.perform operations
    (outcome :: outcomes, last)

def Operation.chunk : Operation → Bytes
  | ingest chunk => chunk
  | extract => []

def ingested (operations : List Operation) : Bytes :=
  operations.flatMap Operation.chunk

@[simp] theorem ingested_nil : ingested [] = [] := rfl

@[simp] theorem ingested_cons (operation : Operation) (operations : List Operation) :
    ingested (operation :: operations) = operation.chunk ++ ingested operations := rfl

@[simp] theorem ingested_append (first second : List Operation) :
    ingested (first ++ second) = ingested first ++ ingested second :=
  List.flatMap_append

variable (reassembly : Reassembly) (operations more : List Operation)

@[simp] theorem perform_extract :
    reassembly.perform (.extract :: operations) =
      (reassembly.extract.1 :: (reassembly.extract.2.perform operations).1,
        (reassembly.extract.2.perform operations).2) := rfl

theorem perform_append :
    reassembly.perform (operations ++ more) =
      ((reassembly.perform operations).1 ++ ((reassembly.perform operations).2.perform more).1,
        ((reassembly.perform operations).2.perform more).2) := by
  induction operations generalizing reassembly with
  | nil => rfl
  | cons operation operations ih => cases operation <;> simp [perform, ih]

theorem extract_conserves :
    serializeAll reassembly.extract.1.packets ++ reassembly.extract.2.queue.bytes =
      reassembly.queue.bytes := by
  obtain ⟨⟨bytes⟩⟩ := reassembly
  cases front bytes with
  | incomplete short => simp [extract_incomplete short, Extraction.packets]
  | malformed header rest small => simp [extract_malformed header rest small, Extraction.packets]
  | packet packet rest exact => simp [extract_packet packet rest exact, Extraction.packets]

theorem exact_of_extract : ∀ packet ∈ reassembly.extract.1.packets, packet.Exact := by
  obtain ⟨⟨bytes⟩⟩ := reassembly
  cases front bytes with
  | incomplete short => simp [extract_incomplete short, Extraction.packets]
  | malformed header rest small => simp [extract_malformed header rest small, Extraction.packets]
  | packet packet rest exact => simpa [extract_packet packet rest exact, Extraction.packets]

theorem perform_conserves :
    serializeAll (packetsOf (reassembly.perform operations).1) ++
        (reassembly.perform operations).2.queue.bytes =
      reassembly.queue.bytes ++ ingested operations := by
  induction operations generalizing reassembly with
  | nil => simp [perform]
  | cons operation operations ih =>
    cases operation with
    | ingest chunk =>
      rw [perform, ih]
      simp [Reassembly.ingest, ByteQueue.push, Operation.chunk]
    | extract =>
      have first := reassembly.extract_conserves
      have later := ih reassembly.extract.2
      simp only [perform_extract, packetsOf_cons, serializeAll_append, List.append_assoc, later]
      rw [← List.append_assoc, first]
      rfl

theorem exact_of_perform :
    ∀ packet ∈ packetsOf (reassembly.perform operations).1, packet.Exact := by
  induction operations generalizing reassembly with
  | nil => simp [perform]
  | cons operation operations ih =>
    cases operation with
    | ingest chunk => exact ih _
    | extract =>
      intro packet member
      rw [perform_extract, packetsOf_cons, List.mem_append] at member
      rcases member with first | later
      next => exact reassembly.exact_of_extract packet first
      next => exact ih _ packet later

theorem framing_of_no_packet {reassembly : Reassembly}
    (none : ∀ packet, reassembly.extract.1 ≠ .packet packet) :
    Framing reassembly.queue.bytes [] reassembly.extract.1 reassembly.queue.bytes ∧
      reassembly.extract.2 = reassembly := by
  obtain ⟨⟨bytes⟩⟩ := reassembly
  cases front bytes with
  | incomplete short =>
    rw [extract_incomplete short]
    exact ⟨.incomplete short, rfl⟩
  | malformed header rest small =>
    rw [extract_malformed header rest small]
    exact ⟨.malformed small, rfl⟩
  | packet packet rest exact =>
    rw [extract_packet packet rest exact] at none
    exact absurd rfl (none packet)

theorem incomplete_of_extract {reassembly : Reassembly}
    (incomplete : reassembly.extract.1 = .incomplete) : Incomplete reassembly.queue.bytes := by
  obtain ⟨⟨bytes⟩⟩ := reassembly
  cases front bytes with
  | incomplete short => exact short
  | malformed header rest small => simp [extract_malformed header rest small] at incomplete
  | packet packet rest exact => simp [extract_packet packet rest exact] at incomplete

theorem extractAll_of_packet {reassembly rest : Reassembly} {packet : Packet}
    (extracted : reassembly.extract = (.packet packet, rest)) :
    reassembly.extractAll = (packet :: rest.extractAll.1, rest.extractAll.2) := by
  have whole := reassembly.extract_conserves
  have exact := reassembly.exact_of_extract
  simp only [extracted, Extraction.packets, serializeAll_cons, serializeAll_nil,
    List.append_nil] at whole exact
  have framing := Framing.packet (exact packet List.mem_cons_self) rest.framing_extractAll
  rw [whole] at framing
  exact framing.extractAll_eq

theorem extractAll_eq_of_no_packet {reassembly : Reassembly}
    (none : ∀ packet, reassembly.extract.1 ≠ .packet packet) :
    reassembly.extractAll = ([], reassembly.extract.1, reassembly) :=
  (framing_of_no_packet none).1.extractAll_eq

theorem perform_malformed (header : Header) (rest : Bytes)
    (small : header.size.toNat < headerSize) :
    (∀ outcome ∈ (perform ⟨⟨header.encode ++ rest⟩⟩ operations).1,
        outcome = .malformed header.size) ∧
      (perform ⟨⟨header.encode ++ rest⟩⟩ operations).2 =
        ⟨⟨header.encode ++ rest ++ ingested operations⟩⟩ := by
  -- Whatever is ingested joins the bytes behind the header, which stays in front.
  induction operations generalizing rest with
  | nil => simp [perform]
  | cons operation operations ih =>
    cases operation with
    | ingest chunk =>
      have later := ih (rest ++ chunk)
      simpa [perform, Reassembly.ingest, ByteQueue.push, Operation.chunk] using later
    | extract =>
      have later := ih rest
      simpa [extract_malformed header rest small, Operation.chunk] using later

theorem malformed_for_good {reassembly : Reassembly} {size : UInt32}
    (malformed : reassembly.extract.1 = .malformed size) :
    (∀ outcome ∈ (reassembly.perform operations).1, outcome = .malformed size) ∧
      (reassembly.perform operations).2 = reassembly.ingest (ingested operations) := by
  obtain ⟨⟨bytes⟩⟩ := reassembly
  cases front bytes with
  | incomplete short => simp [extract_incomplete short] at malformed
  | packet packet rest exact => simp [extract_packet packet rest exact] at malformed
  | malformed header rest small =>
    rw [extract_malformed header rest small] at malformed
    obtain rfl := Extraction.malformed.inj malformed
    exact perform_malformed operations header rest small

theorem perform_extracts {bytes left : Bytes} {packets : List Packet} {outcome : Extraction}
    (framing : Framing bytes packets outcome left) :
    perform ⟨⟨bytes⟩⟩ (.replicate (packets.length + 1) .extract) =
      (packets.map .packet ++ [outcome], ⟨⟨left⟩⟩) := by
  induction framing with
  | incomplete short => simp [perform, extract_incomplete short]
  | malformed small => simp [perform, extract_malformed _ _ small]
  | packet exact _ ih =>
    rw [List.length_cons, List.replicate_succ, perform_extract, extract_packet _ _ exact, ih]
    rfl

@[simp] theorem ingested_replicate_extract (count : Nat) :
    ingested (.replicate count .extract) = [] := by
  induction count with
  | zero => rfl
  | succ count ih => simpa [List.replicate_succ, Operation.chunk] using ih

theorem framing_of_rest {later left : Bytes} {packets : List Packet} {outcome : Extraction}
    (rest : Framing ((perform {} operations).2.queue.bytes ++ later) packets outcome left) :
    Framing (ingested operations ++ later) (packetsOf (perform {} operations).1 ++ packets)
      outcome left := by
  have whole := Framing.of_packets _ (exact_of_perform {} operations) rest
  rwa [← List.append_assoc, perform_conserves] at whole

theorem prefix_of_framing {later left : Bytes} {packets : List Packet} {outcome : Extraction}
    (framing : Framing (ingested operations ++ later) packets outcome left) :
    packetsOf (perform {} operations).1 <+: packets := by
  have conserved : serializeAll (packetsOf (perform {} operations).1) ++
      (perform {} operations).2.queue.bytes = ingested operations := perform_conserves {} operations
  refine framing.prefix_of_packets (exact_of_perform {} operations) ?_
  rw [← conserved, List.append_assoc]
  exact List.prefix_append _ _

theorem extractAll_of_no_packet
    (none : ∀ packet, (perform {} operations).2.extract.1 ≠ .packet packet) :
    (packetsOf (perform {} operations).1, (perform {} operations).2.extract.1,
        (perform {} operations).2) =
      (ingest {} (ingested operations)).extractAll := by
  -- What is left has no packet, so the packets so far are all packets of the stream.
  have settled := (framing_of_no_packet none).1
  rw [← List.append_nil (perform {} operations).2.queue.bytes] at settled
  have whole := framing_of_rest operations settled
  simp only [List.append_nil] at whole
  exact whole.extractAll_eq.symm

theorem exists_extracts_no_packet :
    ∃ count, ∀ packet,
      (reassembly.perform (.replicate count .extract)).2.extract.1 ≠ .packet packet := by
  obtain ⟨packets, outcome, left, framing⟩ := Framing.exists_framing reassembly.queue.bytes
  refine ⟨packets.length + 1, fun packet => ?_⟩
  have run : reassembly.perform (.replicate (packets.length + 1) .extract) = _ :=
    perform_extracts framing
  rw [run, framing.extract_left]
  exact framing.outcome_ne_packet packet

theorem perform_frames_stream (operations : List Operation) :
    let outcomes := (perform {} operations).1
    let last := (perform {} operations).2
    let whole := (ingest {} (ingested operations)).extractAll
    -- Nothing is lost, and every packet has the size of its serialization.
    serializeAll (packetsOf outcomes) ++ last.queue.bytes = ingested operations ∧
    (∀ packet ∈ packetsOf outcomes, packet.size.toNat = headerSize + packet.payload.length) ∧
    -- Whatever follows, the packets so far are the first ones of the stream.
    (∀ later packets outcome left, Framing (ingested operations ++ later) packets outcome left →
      packetsOf outcomes <+: packets) ∧
    -- Extracting until no packet comes has an end, and gives what the stream gives at once.
    Framing (ingested operations) whole.1 whole.2.1 whole.2.2.queue.bytes ∧
    (∃ count, ∀ packet,
      (last.perform (.replicate count .extract)).2.extract.1 ≠ .packet packet) ∧
    (∀ count, let (further, rest) := last.perform (.replicate count .extract)
      (∀ packet, rest.extract.1 ≠ .packet packet) →
        (packetsOf (outcomes ++ further), rest.extract.1, rest) = whole) ∧
    -- An extraction without a packet changes nothing, and a malformed header is there for good.
    ((∀ packet, last.extract.1 ≠ .packet packet) → last.extract.2 = last) ∧
    (∀ size more, last.extract.1 = .malformed size →
      (∀ outcome ∈ (last.perform more).1, outcome = .malformed size) ∧
        (last.perform more).2 = last.ingest (ingested more)) := by
  refine ⟨perform_conserves {} operations, exact_of_perform {} operations, ?_,
    framing_extractAll (ingest {} (ingested operations)), exists_extracts_no_packet _, ?_, ?_, ?_⟩
  next =>
    intro later packets outcome left framing
    exact prefix_of_framing operations framing
  next =>
    intro count none
    have settled := extractAll_of_no_packet (operations ++ .replicate count .extract)
    rw [perform_append, ingested_append, ingested_replicate_extract, List.append_nil] at settled
    exact settled none
  next =>
    intro none
    exact (framing_of_no_packet none).2
  next =>
    intro size more malformed
    exact malformed_for_good more malformed

end Reassembly

end TpmRelay
