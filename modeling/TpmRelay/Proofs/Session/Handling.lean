import TpmRelay.Proofs.Reassembly.Operations
import TpmRelay.Proofs.Session.Change

set_option autoImplicit false

namespace TpmRelay.Session

inductive CallMark where
  | started (packet : Packet)
  | returned (result : Except Fault Unit)

namespace Happening

@[simp] def chunks (side : Side) (channel : Channel) : Happening → List Bytes
  | took origin (some (.chunk kind bytes)) =>
    if origin = side ∧ kind = channel then [bytes] else []
  | _ => []

@[simp] def writes (side : Side) (channel : Channel) : Happening → List Bytes
  | did (.write target kind bytes) => if target = side ∧ kind = channel then [bytes] else []
  | _ => []

@[simp] def packets (side : Side) : Happening → List Packet
  | did (.dispatch origin packet) => if origin = side then [packet] else []
  | _ => []

@[simp] def callMarks (side : Side) : Happening → List CallMark
  | did (.dispatch origin packet) => if origin = side then [.started packet] else []
  | returned origin result => if origin = side then [.returned result] else []
  | _ => []

end Happening

section Views

variable (side : Side) (channel : Channel) (happenings : List Happening)

def taken : List Bytes :=
  happenings.flatMap (Happening.chunks side channel)

def written : List Bytes :=
  happenings.flatMap (Happening.writes side channel)

def handed : List Packet :=
  happenings.flatMap (Happening.packets side)

def calls : List CallMark :=
  happenings.flatMap (Happening.callMarks side)

@[simp] theorem taken_append (later : List Happening) :
    taken side channel (happenings ++ later) =
      taken side channel happenings ++ taken side channel later :=
  List.flatMap_append

@[simp] theorem written_append (later : List Happening) :
    written side channel (happenings ++ later) =
      written side channel happenings ++ written side channel later :=
  List.flatMap_append

@[simp] theorem handed_append (later : List Happening) :
    handed side (happenings ++ later) = handed side happenings ++ handed side later :=
  List.flatMap_append

@[simp] theorem calls_append (later : List Happening) :
    calls side (happenings ++ later) = calls side happenings ++ calls side later :=
  List.flatMap_append

end Views

inductive Standing where
  | idle
  | busy (packet : Packet)
  | failed

def Standing.ofCall : Option Packet → Standing
  | none => idle
  | some packet => busy packet

/-- A call starts only where none is in flight, and only after the one before it has succeeded. -/
inductive OneByOne : List CallMark → Standing → Prop where
  | none : OneByOne [] .idle
  | start {marks : List CallMark} {packet : Packet} (idle : OneByOne marks .idle) :
      OneByOne (marks ++ [.started packet]) (.busy packet)
  | succeed {marks : List CallMark} {packet : Packet} (busy : OneByOne marks (.busy packet)) :
      OneByOne (marks ++ [.returned (.ok ())]) .idle
  | fail {marks : List CallMark} {packet : Packet} {fault : Fault}
      (busy : OneByOne marks (.busy packet)) :
      OneByOne (marks ++ [.returned (.error fault)]) .failed

section

variable {side : Side} {happenings : List Happening} {session session' : Session}

theorem Change.conserves (change : Change session happenings session') :
    serializeAll (handed side happenings) ++ (session'.half side).stream.queue.bytes =
      (session.half side).stream.queue.bytes ++ (taken side .data happenings).flatten := by
  -- Data joins the stream of its own side, and a packet leaves that of its own side.
  cases change with
  | concluded ending => cases ending <;> simp [handed, taken]
  | closed _ _ closing => rcases closing with rfl | rfl <;> simp [handed, taken]
  | @data origin bytes =>
    by_cases same : side = origin
    next => simp [handed, taken, half_withHalf, same, Reassembly.ingest, ByteQueue.push]
    next => simp [handed, taken, half_withHalf, same, Ne.symm same]
  | @dispatched origin packet stream _ _ extracted =>
    by_cases same : side = origin
    next =>
      have conserved := (session.half origin).stream.extract_conserves
      rw [extracted] at conserved
      simpa [handed, taken, half_withHalf, same, Extraction.packets] using conserved
    next => simp [handed, taken, half_withHalf, same, Ne.symm same]
  | _ => simp [handed, taken]

theorem Change.exact_handed (change : Change session happenings session') :
    ∀ packet ∈ handed side happenings, packet.Exact := by
  cases change with
  | concluded ending => cases ending <;> simp [handed]
  | @dispatched origin packet stream _ _ extracted =>
    have exact := (session.half origin).stream.exact_of_extract
    rw [extracted] at exact
    by_cases same : origin = side
    next => simpa [handed, same, Extraction.packets] using exact
    next => simp [handed, same]
  | _ => simp [handed]

def Standing.Fits (standing : Standing) (session : Session) (side : Side) : Prop :=
  standing = .ofCall (session.half side).call ∨
    session.phase.verdict?.isSome ∧ (session.half side).call = none

theorem Standing.Fits.of_unsettled {standing : Standing} (fits : standing.Fits session side)
    (unsettled : session.phase.verdict? = none) :
    standing = .ofCall (session.half side).call := by
  rcases fits with same | dropped
  next => exact same
  next => simp [unsettled] at dropped

theorem Standing.Fits.of_polls {standing : Standing} {other : Side}
    (fits : standing.Fits session side) (polled : session.polls other = true) :
    standing = .ofCall (session.half side).call :=
  fits.of_unsettled (verdict?_of_polls polled)

theorem Change.one_by_one {past : List CallMark} {standing : Standing}
    (change : Change session happenings session') (marks : OneByOne past standing)
    (fits : standing.Fits session side) :
    ∃ standing', OneByOne (past ++ calls side happenings) standing' ∧
      standing'.Fits session' side := by
  -- Only a packet that is handed out and a call that returns move this side on.
  cases change with
  | concluded ending =>
    cases ending with
    | @faulty origin fault polled busy =>
      by_cases same : origin = side
      next =>
        subst same
        obtain ⟨packet, called⟩ := Option.isSome_iff_exists.mp busy
        have busy := fits.of_polls polled
        rw [called] at busy
        subst busy
        exact ⟨.failed, by simpa [calls] using marks.fail, .inr (by simp [Phase.verdict?])⟩
      next => exact ⟨standing, by simpa [calls, same], .inr (by simp [Phase.verdict?])⟩
    | _ => exact ⟨standing, by simpa [calls], .inr (by simp [Phase.verdict?])⟩
  | @dispatched origin packet stream polled idle =>
    by_cases same : origin = side
    next =>
      subst same
      have free := fits.of_polls polled
      rw [idle] at free
      subst free
      refine ⟨.busy packet, by simpa [calls] using marks.start, .inl ?_⟩
      simp [half_withHalf, Standing.ofCall]
    next =>
      refine ⟨standing, by simpa [calls, same], ?_⟩
      simpa [Standing.Fits, half_withHalf, Ne.symm same] using fits
  | @returned origin polled busy =>
    by_cases same : origin = side
    next =>
      subst same
      obtain ⟨packet, called⟩ := Option.isSome_iff_exists.mp busy
      have busy := fits.of_polls polled
      rw [called] at busy
      subst busy
      refine ⟨.idle, by simpa [calls] using marks.succeed, .inl ?_⟩
      simp [half_withHalf, Standing.ofCall]
    next =>
      refine ⟨standing, by simpa [calls, same], ?_⟩
      simpa [Standing.Fits, half_withHalf, Ne.symm same] using fits
  | _ => exact ⟨standing, by simpa [calls], by simpa [Standing.Fits, Phase.verdict?, *] using fits⟩

structure Handling (side : Side) (past : List Happening) (session : Session) : Prop where
  conserved : serializeAll (handed side past) ++ (session.half side).stream.queue.bytes =
    (taken side .data past).flatten
  exact : ∀ packet ∈ handed side past, packet.Exact
  standing : ∃ standing, OneByOne (calls side past) standing ∧ standing.Fits session side

theorem Handling.fresh (side : Side) (recording : Recording) :
    Handling side [] (Session.fresh recording) where
  conserved := by cases side <;> rfl
  exact := by simp [handed]
  standing := ⟨.idle, .none, .inl (by cases side <;> rfl)⟩

theorem Handling.change {past : List Happening} (handling : Handling side past session)
    (change : Change session happenings session') : Handling side (past ++ happenings) session' where
  conserved := by
    rw [handed_append, serializeAll_append, List.append_assoc, change.conserves, taken_append,
      List.flatten_append, ← handling.conserved, List.append_assoc]
  exact := by
    intro packet member
    rw [handed_append, List.mem_append] at member
    rcases member with before | now
    next => exact handling.exact packet before
    next => exact change.exact_handed packet now
  standing := by
    obtain ⟨standing, marks, fits⟩ := handling.standing
    rw [calls_append]
    exact change.one_by_one marks fits

theorem handling_of_journal {recording : Recording} {moves : List Move}
    (run : (fresh recording).journal moves = some (happenings, session)) (side : Side) :
    Handling side happenings session :=
  journal_induction [] (Handling.fresh side recording) Handling.change run

theorem Handling.framing (handling : Handling side happenings session)
    (incomplete : Incomplete (session.half side).stream.queue.bytes) :
    Framing (taken side .data happenings).flatten (handed side happenings) .incomplete
      (session.half side).stream.queue.bytes := by
  have framing := Framing.of_packets _ handling.exact (.incomplete incomplete)
  rwa [handling.conserved, List.append_nil] at framing

theorem Handling.prefix_of_stream (handling : Handling side happenings session) (later : Bytes) :
    handed side happenings <+:
      (Reassembly.ingest {} ((taken side .data happenings).flatten ++ later)).extractAll.1 := by
  refine (Reassembly.framing_extractAll _).prefix_of_packets handling.exact ?_
  have whole : (Reassembly.ingest {} ((taken side .data happenings).flatten ++ later)).queue.bytes =
      (taken side .data happenings).flatten ++ later := rfl
  rw [whole, ← handling.conserved, List.append_assoc]
  exact List.prefix_append _ _

theorem calls_one_by_one_and_exact {recording : Recording} {moves : List Move}
    (run : (fresh recording).journal moves = some (happenings, session)) (side : Side) :
    (∃ standing, OneByOne (calls side happenings) standing ∧ standing.Fits session side) ∧
    serializeAll (handed side happenings) ++ (session.half side).stream.queue.bytes =
      (taken side .data happenings).flatten ∧
    ∀ later, handed side happenings <+:
      (Reassembly.ingest {} ((taken side .data happenings).flatten ++ later)).extractAll.1 := by
  have handling := handling_of_journal run side
  exact ⟨handling.standing, handling.conserved, handling.prefix_of_stream⟩

theorem calls_of_exchange :
    ∃ happenings session, (fresh .absent).journal exchange = some (happenings, session) ∧
      handed .simulator happenings = [ping] ∧
      ((∃ standing, OneByOne (calls .simulator happenings) standing ∧
          standing.Fits session .simulator) ∧
        serializeAll (handed .simulator happenings) ++
            (session.half .simulator).stream.queue.bytes =
          (taken .simulator .data happenings).flatten ∧
        ∀ later, handed .simulator happenings <+:
          (Reassembly.ingest {}
            ((taken .simulator .data happenings).flatten ++ later)).extractAll.1) := by
  have run : ∃ happenings session, (fresh .absent).journal exchange = some (happenings, session) ∧
      handed .simulator happenings = [ping] := ⟨_, _, rfl, rfl⟩
  obtain ⟨happenings, session, run, given⟩ := run
  exact ⟨happenings, session, run, given, calls_one_by_one_and_exact run .simulator⟩

end

end TpmRelay.Session
