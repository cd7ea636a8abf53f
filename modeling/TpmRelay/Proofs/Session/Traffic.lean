import TpmRelay.Proofs.Capture.Limit
import TpmRelay.Proofs.Session.Capturing

set_option autoImplicit false

namespace TpmRelay

open Wire

namespace Recording

open Capture

def Input.chunk? : Input → Option Chunk
  | .chunk read => if read.payload = [] then none else some read
  | .close => none

def Input.pieces : Input → List Chunk
  | .chunk read => read.pieces
  | .close => []

theorem flatMap_pieces (inputs : List Input) :
    (inputs.filterMap Input.chunk?).flatMap Chunk.pieces = inputs.flatMap Input.pieces := by
  induction inputs with
  | nil => rfl
  | cons input inputs ih =>
    rw [List.flatMap_cons, ← ih]
    cases input with
    | close => rfl
    | chunk chunk =>
      by_cases empty : chunk.payload = []
      next => simp [Input.chunk?, Input.pieces, empty, Chunk.pieces_of_empty empty]
      next => simp [Input.chunk?, Input.pieces, empty]

inductive Holds (first : Recorder) (pieces : List Chunk) : Recording → Prop where
  | active (fits : Fits first.sink.limit (first.append pieces).sink.accepted) :
      Holds first pieces (.active (first.append pieces))
  | finished (fits : Fits first.sink.limit (first.append pieces).sink.accepted) :
      Holds first pieces (.finished (first.append pieces))
  | abandoned {last : Recorder}
      (exceeds : ¬ Fits first.sink.limit (first.append pieces).sink.accepted)
      (full : last.sink.accepted = cut first.sink.limit (first.append pieces).sink.accepted) :
      Holds first pieces (.abandoned last)

variable {first : Recorder} {pieces : List Chunk} {recording : Recording}

theorem Holds.receive (holds : Holds first pieces recording)
    (goesOn : ∀ last, recording ≠ .finished last) (input : Input) :
    Holds first (pieces ++ input.pieces) (recording.receive input).2 := by
  cases holds with
  | finished => exact absurd rfl (goesOn _)
  | active fits =>
    cases input with
    | close => simpa [Input.pieces, Recording.receive] using Holds.finished fits
    | chunk chunk =>
      by_cases more : Fits first.sink.limit ((first.append pieces).append chunk.pieces).sink.accepted
      next =>
        have written : (first.append pieces).write chunk =
            (.ok (), (first.append pieces).append chunk.pieces) := Recorder.write_of_fits more
        rw [Recorder.append_append] at more written
        simp only [Recording.receive, written]
        exact .active more
      next =>
        obtain ⟨last, written, overran⟩ : ∃ last,
            (first.append pieces).write chunk = (.error Sink.full, last) ∧
              (first.append pieces).Overran chunk.pieces last :=
          Recorder.write_of_not_fits fits more
        simp only [Recording.receive, written]
        exact .abandoned overran.after.exceeds overran.after.accepted
  | abandoned exceeds full =>
    obtain ⟨more, whole⟩ := first.accepted_append pieces input.pieces
    rw [receive_idle rfl]
    refine .abandoned ?_ ?_
    next =>
      rw [whole]
      exact fun fits => exceeds fits.left
    next => rw [full, whole, cut_over exceeds]

theorem Holds.accepted (holds : Holds first pieces recording) :
    ∃ last, recording.recorder? = some last ∧
      last.sink.accepted = cut first.sink.limit (first.append pieces).sink.accepted := by
  cases holds with
  | active fits | finished fits => exact ⟨_, rfl, (cut_of_fits fits).symm⟩
  | abandoned _ full => exact ⟨_, rfl, full⟩

theorem eq_finished_of_receive {chunk : Chunk} {last : Recorder}
    (finished : (recording.receive (.chunk chunk)).2 = .finished last) :
    recording = .finished last := by
  cases recording with
  | active recorder =>
    simp only [receive] at finished
    split at finished <;> cases finished
  | absent | abandoned | finished => exact finished

end Recording

namespace Session

def Happening.traffic : Happening → List (Direction × Bytes)
  | took side (some (.chunk channel bytes)) => if bytes = [] then [] else [(⟨side, channel⟩, bytes)]
  | _ => []

/-- The chunks that were taken, with the direction that they came from. -/
def traffic (happenings : List Happening) : List (Direction × Bytes) :=
  happenings.flatMap Happening.traffic

def captured (session : Session) (moves : List Move) : List Capture.Chunk :=
  (session.heardAll moves).filterMap Recording.Input.chunk?

/-- The records of these chunks are in the capture, as far as there is room. -/
def Captures (limit : Option Nat) (header : Capture.FileHeader) (chunks : List Capture.Chunk)
    (session : Session) : Prop :=
  ∃ last, session.recording.recorder? = some last ∧
    last.sink.accepted =
      header.encode ++ cut (limit.map (· - 24)) (Capture.recordBytes chunks)

def passOn (session : Session) (side : Side) (channel : Channel) (bytes : Bytes) : Progress :=
  match channel with
  | .control =>
    ([.write side.opposite .control bytes], { session with phase := .forwarding side bytes })
  | .data =>
    (session.withHalf side fun half => { half with stream := half.stream.ingest bytes }).turn

structure Recorded (first : Capture.Recorder) (pieces : List Capture.Chunk) (session : Session) :
    Prop where
  holds : session.recording.Holds first pieces
  ended : ∀ last, session.recording = .finished last → session.outcome?.isSome

variable {session next : Session} {first : Capture.Recorder} {pieces : List Capture.Chunk}

theorem receive_eq (session : Session) (side : Side) (time : Capture.Timestamp) (channel : Channel)
    (bytes : Bytes) :
    session.receive side time channel bytes =
      let (told, recorded) := session.record ⟨⟨side, channel⟩, time, bytes⟩
      let (effects, next) := recorded.passOn side channel bytes
      (.note (.read ⟨side, channel⟩ bytes) :: told ++ effects, next) := by
  cases channel <;> simp [receive, passOn]

theorem recording_record (session : Session) (chunk : Capture.Chunk) :
    (session.record chunk).2.recording = (session.recording.receive (.chunk chunk)).2 := by
  rw [record_eq_receive]
  rfl

theorem Change.ended_of_finished {happenings : List Happening}
    (change : Change session happenings next)
    (ended : ∀ last, session.recording = .finished last → session.outcome?.isSome) :
    ∀ last, next.recording = .finished last → next.outcome?.isSome := by
  cases change with
  | data time relaying taken | control time relaying taken =>
    intro last finished
    simp only [recording_withHalf, recording_record] at finished
    have settled := ended last (Recording.eq_finished_of_receive finished)
    simp [outcome?, relaying] at settled
  | concluded ending =>
    intro last finished
    obtain ⟨outcome, settled⟩ := Option.isSome_iff_exists.mp (ended last finished)
    simpa [phase_of_outcome? settled, Phase.verdict?] using ending.unsettled
  | _ => simp_all [outcome?]

section Step

variable {move : Move} {effects : List Effect}

theorem recording_of_step (stepped : session.step move = some (effects, next)) :
    next.recording = (session.recording.receiveAll (session.heard move)).2 := by
  have beside := session.step_beside move
  rw [stepped] at beside
  generalize session.unrecorded.step move = relayed at beside
  cases beside with
  | some beside => rw [beside.capture]

theorem heard_of_ended {outcome : Outcome} (ended : session.phase = .ended outcome)
    (stepped : session.step move = some (effects, next)) : session.heard move = [] := by
  cases move <;> simp_all [step, heard]

theorem Recorded.step (recorded : Recorded first pieces session)
    (stepped : session.step move = some (effects, next)) :
    Recorded first (pieces ++ (session.heard move).flatMap Recording.Input.pieces) next := by
  constructor
  next =>
    have heard : session.heard move = [] ∨ ∃ input, session.heard move = [input] := by
      cases move with
      | take | released =>
        simp only [Session.heard]
        split <;> simp
      | _ => exact .inl rfl
    rw [recording_of_step stepped]
    rcases heard with silent | ⟨input, heard⟩
    next => simpa [silent, Recording.receiveAll] using recorded.holds
    next =>
      have goesOn : ∀ last, session.recording ≠ .finished last := by
        intro last finished
        obtain ⟨outcome, settled⟩ := Option.isSome_iff_exists.mp (recorded.ended last finished)
        have silent := heard_of_ended (phase_of_outcome? settled) stepped
        simp [silent] at heard
      simpa [heard, Recording.receiveAll] using recorded.holds.receive goesOn input
  next =>
    have kept := (step_changes stepped).induction
      (motive := fun _ later => ∀ last, later.recording = .finished last → later.outcome?.isSome)
      [] recorded.ended fun start change => change.ended_of_finished start
    exact kept

end Step

theorem captured_cons {move : Move} {effects : List Effect}
    (stepped : session.step move = some (effects, next)) (moves : List Move) :
    session.captured (move :: moves) =
      (session.heard move).filterMap Recording.Input.chunk? ++ next.captured moves := by
  simp [captured, heardAll, stepped]

theorem Recorded.journal {moves : List Move} {happenings : List Happening}
    (recorded : Recorded first pieces session)
    (run : session.journal moves = some (happenings, next)) :
    Recorded first (pieces ++ (session.captured moves).flatMap Capture.Chunk.pieces) next := by
  induction moves generalizing session pieces happenings with
  | nil =>
    obtain ⟨-, rfl⟩ := Prod.mk.inj (Option.some.inj run)
    simpa [captured, heardAll] using recorded
  | cons move moves ih =>
    obtain ⟨effects, middle, later, stepped, rest, -⟩ := journal_cons run
    rw [captured_cons stepped, List.flatMap_append, Recording.flatMap_pieces, ← List.append_assoc]
    exact ih (recorded.step stepped) rest

@[simp] theorem traffic_append (before after : List Happening) :
    traffic (before ++ after) = traffic before ++ traffic after :=
  List.flatMap_append

@[simp] theorem traffic_deeds (effects : List Effect) : traffic (deeds effects) = [] := by
  refine List.flatMap_eq_nil_iff.mpr fun happening member => ?_
  obtain ⟨effect, -, done⟩ := List.mem_flatMap.mp member
  cases effect <;> simp_all [Effect.deed, Happening.traffic]

theorem traffic_observe (session : Session) (move : Move) :
    traffic (session.observe move) =
      ((session.heard move).filterMap Recording.Input.chunk?).map fun chunk =>
        (chunk.direction, chunk.payload) := by
  cases move with
  | take side time =>
    simp only [observe, heard]
    cases (session.half side).inbox.take with
    | none => rfl
    | some found =>
      obtain ⟨event, inbox⟩ := found
      cases event with
      | none => rfl
      | some event =>
        cases event with
        | closed => rfl
        | chunk channel bytes =>
          by_cases empty : bytes = [] <;>
            simp [traffic, Happening.traffic, Recording.Input.chunk?, empty]
  | released =>
    simp only [heard]
    split <;> rfl
  | _ => rfl

theorem captured_eq_traffic {moves : List Move} {happenings : List Happening}
    (run : session.journal moves = some (happenings, next)) :
    (session.captured moves).map (fun chunk => (chunk.direction, chunk.payload)) =
      traffic happenings := by
  induction moves generalizing session happenings with
  | nil =>
    obtain ⟨rfl, -⟩ := Prod.mk.inj (Option.some.inj run)
    rfl
  | cons move moves ih =>
    obtain ⟨effects, middle, later, stepped, rest, rfl⟩ := journal_cons run
    rw [captured_cons stepped, List.map_append, ih rest, ← traffic_observe, traffic_append,
      traffic_append, traffic_deeds, List.append_nil]

theorem captured_append {moves : List Move} {happenings : List Happening}
    (run : session.journal moves = some (happenings, next)) (more : List Move) :
    session.captured (moves ++ more) = session.captured moves ++ next.captured more := by
  induction moves generalizing session happenings with
  | nil =>
    obtain ⟨-, rfl⟩ := Prod.mk.inj (Option.some.inj run)
    rfl
  | cons move moves ih =>
    obtain ⟨effects, middle, later, stepped, rest, rfl⟩ := journal_cons run
    rw [List.cons_append, captured_cons stepped, captured_cons stepped, ih rest, List.append_assoc]

theorem captures_of_holds {limit : Option Nat} {flushFault : Option Fault}
    {header : Capture.FileHeader} {chunks : List Capture.Chunk}
    (created : Capture.Recorder.create { limit, flushFault } header = (.ok (), first))
    (holds : session.recording.Holds first (chunks.flatMap Capture.Chunk.pieces)) :
    Captures limit header chunks session := by
  obtain ⟨rfl, fits⟩ := Capture.Recorder.create_eq_ok created
  obtain ⟨last, found, accepted⟩ := holds.accepted
  refine ⟨last, found, ?_⟩
  have room : cut limit (header.encode ++ Capture.recordBytes chunks) =
      header.encode ++ cut (limit.map (· - header.encode.length)) (Capture.recordBytes chunks) :=
    cut_append fits
  rw [Capture.FileHeader.length_encode] at room
  rw [accepted, ← room]
  rfl

theorem recorded_fresh {limit : Option Nat} {flushFault : Option Fault}
    {header : Capture.FileHeader}
    (created : Capture.Recorder.create { limit, flushFault } header = (.ok (), first)) :
    Recorded first [] (fresh (.active first)) := by
  obtain ⟨shape, fits⟩ := Capture.Recorder.create_eq_ok created
  have within : Fits first.sink.limit (first.append []).sink.accepted := by
    rw [Capture.Recorder.append_nil, shape]
    exact fits
  have holds := Recording.Holds.active within
  rw [Capture.Recorder.append_nil] at holds
  exact ⟨holds, by simp [fresh]⟩

theorem take_records_first {side : Side} {time : Capture.Timestamp} {channel : Channel}
    {bytes : Bytes} {inbox : Link.Inbox} {effects : List Effect}
    (taken : (session.half side).inbox.take = some (some (.chunk channel bytes), inbox))
    (stepped : session.step (.take side time) = some (effects, next)) :
    ∃ (told : List Effect) (recorded : Session) (rest : List Effect),
      effects = told ++ rest ∧ deeds told = [] ∧ recorded.recording = next.recording ∧
      recorded.unrecorded = (session.withHalf side fun half => { half with inbox }).unrecorded ∧
      recorded.passOn side channel bytes = (rest, next) := by
  have heard : session.heard (.take side time) = [.chunk ⟨⟨side, channel⟩, time, bytes⟩] := by
    simp [Session.heard, taken]
  have recording := recording_of_step stepped
  rw [heard] at recording
  have relaying : session.phase = .relaying := by
    cases phase : session.phase <;> simp [step, phase] at stepped ⊢
  simp only [step, relaying, take, taken, Option.map_some, receive_eq, Option.some.injEq,
    Prod.mk.injEq] at stepped
  obtain ⟨rfl, passed⟩ := stepped
  let opened := session.withHalf side fun half => { half with inbox }
  refine ⟨_, (opened.record ⟨⟨side, channel⟩, time, bytes⟩).2, _, rfl, ?_, ?_, ?_, ?_⟩
  next => simp
  next =>
    rw [recording, recording_record]
    rfl
  next =>
    rw [record_eq_receive]
    rfl
  next => exact Prod.ext rfl passed

theorem capture_is_traffic {limit : Option Nat} {flushFault : Option Fault}
    {header : Capture.FileHeader} {recorder : Capture.Recorder} {moves : List Move}
    {happenings : List Happening} {session : Session}
    (created : Capture.Recorder.create { limit, flushFault } header = (.ok (), recorder))
    (run : (fresh (.active recorder)).journal moves = some (happenings, session)) :
    ((fresh (.active recorder)).captured moves).map
        (fun chunk => (chunk.direction, chunk.payload)) = traffic happenings ∧
      Captures limit header ((fresh (.active recorder)).captured moves) session ∧
      -- The chunk that is taken next is in the capture before it is forwarded or framed.
      ∀ side time channel bytes inbox effects next,
        (session.half side).inbox.take = some (some (.chunk channel bytes), inbox) →
        session.step (.take side time) = some (effects, next) →
          ∃ (told : List Effect) (recorded : Session) (rest : List Effect),
            effects = told ++ rest ∧ deeds told = [] ∧
            Captures limit header
              ((fresh (.active recorder)).captured (moves ++ [.take side time])) recorded ∧
            recorded.unrecorded =
              (session.withHalf side fun half => { half with inbox }).unrecorded ∧
            recorded.passOn side channel bytes = (rest, next) := by
  have recorded := (recorded_fresh created).journal run
  rw [List.nil_append] at recorded
  refine ⟨captured_eq_traffic run, captures_of_holds created recorded.holds, ?_⟩
  intro side time channel bytes inbox effects next taken stepped
  obtain ⟨told, midway, rest, split, quiet, same, untouched, passed⟩ :=
    take_records_first taken stepped
  refine ⟨told, midway, rest, split, quiet, captures_of_holds created ?_, untouched, passed⟩
  have one : session.journal [.take side time] = some (_, next) := journal_step stepped []
  have longer := (recorded.journal one).holds
  rwa [← List.flatMap_append, ← captured_append run, ← same] at longer

theorem isSome_journal_unrecorded (session : Session) (moves : List Move) :
    (session.unrecorded.journal moves).isSome = (session.journal moves).isSome := by
  have isSome (session : Session) : (session.journal moves).isSome = (session.run moves).isSome := by
    have same := congrArg Option.isSome (run_eq_journal session moves)
    simpa using same.symm
  rw [isSome, isSome, eq_map_bare (session.run_beside moves), Option.isSome_map]

-- The simulator sends control bytes, which the client does not take.
def rebuff : List Move :=
  [.start ⟨{}, {}⟩, .arrive .simulator (.chunk .control [0, 7]),
    .take .simulator (.millis 5), .forwarded (.error ⟨.brokenPipe, none⟩), .released, .released]

def rebuffed : Capture.Chunk :=
  ⟨⟨.simulator, .control⟩, .millis 5, [0, 7]⟩

theorem capture_of_rebuff :
    ∃ recorder, Capture.Recorder.create { limit := some 69 } {} = (.ok (), recorder) ∧
      (∃ happenings session, (fresh (.active recorder)).journal rebuff = some (happenings, session) ∧
        traffic happenings = [(⟨.simulator, .control⟩, [0, 7])] ∧
        Captures (some 69) {} [rebuffed] session) ∧
      ∃ happenings session told recorded rest next,
        (fresh (.active recorder)).journal (rebuff.take 2) = some (happenings, session) ∧
        session.step (.take .simulator (.millis 5)) = some (told ++ rest, next) ∧
        deeds told = [] ∧ Captures (some 69) {} [rebuffed] recorded ∧
        recorded.passOn .simulator .control [0, 7] = (rest, next) := by
  obtain ⟨recorder, created⟩ : ∃ recorder,
      Capture.Recorder.create { limit := some 69 } {} = (.ok (), recorder) := ⟨_, rfl⟩
  have runs (moves : List Move) (relayed : ((fresh .absent).journal moves).isSome) :
      ∃ happenings session,
        (fresh (.active recorder)).journal moves = some (happenings, session) := by
    have run := (isSome_journal_unrecorded (fresh (.active recorder)) moves).symm.trans relayed
    obtain ⟨⟨happenings, session⟩, run⟩ := Option.isSome_iff_exists.mp run
    exact ⟨happenings, session, run⟩
  have told (moves : List Move) :
      (fresh (.active recorder)).captured moves = (fresh .absent).captured moves :=
    congrArg _ (heardAll_unrecorded (fresh (.active recorder)) moves).symm
  refine ⟨recorder, created, ?_, ?_⟩
  next =>
    obtain ⟨happenings, session, run⟩ := runs rebuff rfl
    have captured := capture_is_traffic created run
    rw [told] at captured
    exact ⟨happenings, session, run, captured.1.symm, captured.2.1⟩
  next =>
    obtain ⟨_, _, run⟩ := runs (rebuff.take 2 ++ [.take .simulator (.millis 5)]) rfl
    obtain ⟨happenings, session, _, before, after, -⟩ := journal_of_append run
    obtain ⟨effects, next, _, stepped, -, -⟩ := journal_cons after
    obtain ⟨inbox, taken⟩ : ∃ inbox, (session.half .simulator).inbox.take =
        some (some (.chunk .control [0, 7]), inbox) := by
      obtain ⟨-, rfl⟩ := Prod.mk.inj (Option.some.inj before)
      exact ⟨_, rfl⟩
    have recorded := (capture_is_traffic created before).2.2 _ _ _ _ _ _ _ taken stepped
    rw [told] at recorded
    obtain ⟨first, midway, rest, rfl, quiet, captures, -, passed⟩ := recorded
    exact ⟨happenings, session, first, midway, rest, next, before, stepped, quiet, captures, passed⟩

end Session

end TpmRelay
