import TpmRelay.Proofs.Session.Handling
import TpmRelay.Proofs.Session.Turnout

set_option autoImplicit false

namespace TpmRelay.Session

/-- What a session does not survive. -/
def Happening.fatal : Happening → Bool
  | returned _ (.error _) | forwarded (.error _) => true
  | _ => false

def completed (packets : List Packet) : List CallMark :=
  packets.flatMap fun packet => [.started packet, .returned (.ok ())]

def CallMark.packets : CallMark → List Packet
  | started packet => [packet]
  | returned _ => []

section Marks

variable {marks : List CallMark} {standing : Standing} {packets : List Packet}

theorem OneByOne.exists_completed (oneByOne : OneByOne marks standing) :
    (standing = .idle → ∃ packets, marks = completed packets) ∧
      ∀ packet, standing = .busy packet →
        ∃ packets, marks = completed packets ++ [.started packet] := by
  induction oneByOne with
  | none => exact ⟨fun _ => ⟨[], rfl⟩, by simp⟩
  | start _ ih =>
    obtain ⟨packets, rfl⟩ := ih.1 rfl
    exact ⟨by simp, fun _ same => ⟨packets, by rw [Standing.busy.inj same]⟩⟩
  | @succeed _ packet _ ih =>
    obtain ⟨packets, rfl⟩ := ih.2 packet rfl
    exact ⟨fun _ => ⟨packets ++ [packet], by simp [completed]⟩, by simp⟩
  | fail => simp

theorem OneByOne.idle_of_completed (oneByOne : OneByOne (completed packets) standing) :
    standing = .idle := by
  generalize same : completed packets = marks at oneByOne
  -- The last mark says how the calls stand, and here it can only be that of a success.
  have last : ∀ mark ∈ marks.getLast?, mark = .returned (.ok ()) := by
    rw [← same]
    rcases List.eq_nil_or_concat packets with rfl | ⟨front, packet, rfl⟩ <;> simp [completed]
  cases oneByOne <;> simp_all

@[simp] theorem flatMap_completed : (completed packets).flatMap CallMark.packets = packets := by
  induction packets with
  | nil => rfl
  | cons packet packets ih => exact congrArg (packet :: ·) ih

theorem error_notMem_completed (fault : Fault) : .returned (.error fault) ∉ completed packets := by
  simp [completed]

end Marks

section Views

variable {side : Side} {channel : Channel} {happenings : List Happening}

theorem packets_of_calls :
    (calls side happenings).flatMap CallMark.packets = handed side happenings := by
  rw [calls, handed, List.flatMap_assoc]
  refine List.flatMap_congr fun happening _ => ?_
  unfold Happening.callMarks Happening.packets
  split <;> simp_all [CallMark.packets, apply_ite]

theorem taken_of_parts (parts : ∀ happening ∈ happenings, happening.parts = true) :
    taken side channel happenings = [] := by
  refine List.flatMap_eq_nil_iff.mpr fun happening member => ?_
  have parts := parts happening member
  unfold Happening.parts at parts
  split at parts <;> simp_all

theorem calls_of_parts (parts : ∀ happening ∈ happenings, happening.parts = true) :
    calls side happenings = [] := by
  refine List.flatMap_eq_nil_iff.mpr fun happening member => ?_
  have parts := parts happening member
  unfold Happening.parts at parts
  split at parts <;> simp_all

theorem Parting.parts {outcome : Outcome} {recording : Recording} {session : Session}
    (parting : Parting outcome recording happenings session) :
    ∀ happening ∈ happenings, happening.parts = true := by
  rw [parting.farewell]
  cases session.phase with
  | releasing current => cases current <;> simp [Phase.farewell, Happening.parts]
  | ended => cases recording.works <;> simp [Phase.farewell, Happening.parts]
  | _ => simp [Phase.farewell]

end Views

section

variable {recording : Recording} {session : Session} {happenings before after : List Happening}
  {happening : Happening} {side : Side} {packets : List Packet} {size : UInt32} {fault : Fault}

theorem Change.harmless {session' : Session} (change : Change session happenings session')
    (unsettled : session'.phase.verdict? = none) :
    session.phase.verdict? = none ∧ ∀ happening ∈ happenings, happening.fatal = false := by
  cases change with
  | concluded | released | flushed | ended => simp [Phase.verdict?] at unsettled
  | sent polled | returned polled | dispatched polled =>
    exact ⟨verdict?_of_polls polled, by simp [Happening.fatal]⟩
  | _ => simp_all [Phase.verdict?, Happening.fatal]

theorem Changes.harmless {session' : Session} (changes : Changes session happenings session')
    (unsettled : session'.phase.verdict? = none) :
    session.phase.verdict? = none ∧ ∀ happening ∈ happenings, happening.fatal = false := by
  induction changes with
  | refl => exact ⟨unsettled, by simp⟩
  | step change _ ih =>
    obtain ⟨between, later⟩ := ih unsettled
    obtain ⟨unsettled, now⟩ := change.harmless between
    refine ⟨unsettled, fun happening member => ?_⟩
    rcases List.mem_append.mp member with first | rest
    next => exact now happening first
    next => exact later happening rest

theorem Turnout.of_fatal {first : Session}
    (turnout : Turnout first (before ++ happening :: after) session)
    (fatal : happening.fatal = true) :
    ∃ last outcome, Changes first before last ∧ Ending last [happening] outcome ∧
      Parting outcome last.recording after session := by
  generalize whole : before ++ happening :: after = past at turnout
  have member : happening ∈ past := by simp [← whole]
  cases turnout with
  | waits changes unsettled =>
    have harmless := (changes.harmless unsettled).2 happening member
    simp [fatal] at harmless
  | @ended active cause said outcome last _ changes ending _ parting =>
    have notActive : happening ∉ active := fun member => by
      have harmless := (changes.harmless ending.unsettled).2 happening member
      simp [fatal] at harmless
    have notSaid : happening ∉ said := fun member => by
      have parts := parting.parts happening member
      unfold Happening.parts at parts
      split at parts <;> simp [Happening.fatal] at fatal parts
    obtain rfl : cause = [happening] := by
      have during : happening ∈ cause := by simpa [notActive, notSaid] using member
      cases ending <;> simp_all
    rw [List.append_assoc, List.singleton_append] at whole
    obtain ⟨rfl, -, rfl⟩ := (List.append_cons_inj_of_notMem notActive notSaid).mp whole.symm
    exact ⟨last, outcome, changes, ending, parting⟩

theorem handling_of_changes (changes : Changes (fresh recording) happenings session) (side : Side) :
    Handling side happenings session :=
  changes.induction [] (Handling.fresh side recording) Handling.change

theorem Handling.framing_of_no_packet (handling : Handling side happenings session)
    (none : ∀ packet, (session.half side).stream.extract.1 ≠ .packet packet) :
    Framing (taken side .data happenings).flatten (handed side happenings)
      (session.half side).stream.extract.1 (session.half side).stream.queue.bytes := by
  have framing := Framing.of_packets _ handling.exact (Reassembly.framing_of_no_packet none).1
  rwa [handling.conserved, List.append_nil] at framing

theorem Handling.idle_of_completed (handling : Handling side happenings session)
    (unsettled : session.phase.verdict? = none)
    (finished : calls side happenings = completed packets) : (session.half side).call = none := by
  obtain ⟨standing, marks, fits⟩ := handling.standing
  rw [finished] at marks
  have same := fits.of_unsettled unsettled
  rw [marks.idle_of_completed] at same
  cases call : (session.half side).call with
  | none => rfl
  | some packet => simp [call, Standing.ofCall] at same

theorem Handling.completed_of_idle (handling : Handling side happenings session)
    (unsettled : session.phase.verdict? = none) (idle : (session.half side).call = none) :
    calls side happenings = completed (handed side happenings) := by
  obtain ⟨standing, marks, fits⟩ := handling.standing
  have same := fits.of_unsettled unsettled
  rw [idle] at same
  obtain ⟨packets, finished⟩ := marks.exists_completed.1 same
  rw [← packets_of_calls, finished, flatMap_completed]

theorem Handling.malformed_of_framing {left : Bytes}
    (handling : Handling side happenings session)
    (framing : Framing (taken side .data happenings).flatten packets (.malformed size) left)
    (finished : calls side happenings = completed packets) :
    (session.half side).stream.extract.1 = .malformed size := by
  have same : handed side happenings = packets := by
    rw [← packets_of_calls, finished, flatMap_completed]
  have whole := handling.conserved
  rw [framing.bytes_eq, same, List.append_cancel_left_eq] at whole
  have extracted := framing.extract_left
  rw [← whole] at extracted
  exact congrArg Prod.fst extracted

theorem Ending.taken_eq_nil {cause : List Happening} {outcome : Outcome}
    (ending : Ending session cause outcome) : taken side .data cause = [] := by
  cases ending <;> simp [taken]

theorem Ending.error_of_calls {cause : List Happening} {outcome : Outcome}
    (ending : Ending session cause outcome) :
    ∀ mark ∈ calls side cause, ∃ fault, mark = .returned (.error fault) := by
  cases ending with
  | @faulty origin => by_cases same : origin = side <;> simp [calls, same]
  | _ => simp [calls]

theorem Turnout.framing_iff (turnout : Turnout (fresh recording) happenings session) :
    session.phase.verdict? = some (.failed (.framing side size)) ↔
      ∃ packets left, Framing (taken side .data happenings).flatten packets (.malformed size) left ∧
        calls side happenings = completed packets := by
  cases turnout with
  | waits changes unsettled settled =>
    refine ⟨fun verdict => by simp [unsettled] at verdict, ?_⟩
    rintro ⟨packets, left, framing, finished⟩
    have handling := handling_of_changes changes side
    have malformed := handling.malformed_of_framing framing finished
    simp [settled side (handling.idle_of_completed unsettled finished)] at malformed
  | @ended active cause said outcome last _ changes ending settled parting =>
    have handling := handling_of_changes changes side
    rw [taken_append, taken_append, calls_append, calls_append, ending.taken_eq_nil,
      taken_of_parts parting.parts, calls_of_parts parting.parts, List.append_nil, List.append_nil,
      List.append_nil, parting.verdict, Option.some.injEq]
    constructor
    next =>
      rintro rfl
      cases ending with
      | malformed polled idle malformed =>
        have framing := handling.framing_of_no_packet (by simp [malformed])
        rw [malformed] at framing
        have finished := handling.completed_of_idle (verdict?_of_polls polled) idle
        exact ⟨_, _, framing, by simpa [calls] using finished⟩
    next =>
      rintro ⟨packets, left, framing, finished⟩
      -- No call on this side failed in the end, so that the side was idle there.
      have quiet : calls side cause = [] := by
        refine List.eq_nil_iff_forall_not_mem.mpr fun mark member => ?_
        obtain ⟨fault, rfl⟩ := ending.error_of_calls mark member
        exact error_notMem_completed fault (finished ▸ List.mem_append_right _ member)
      rw [quiet, List.append_nil] at finished
      have malformed := handling.malformed_of_framing framing finished
      rcases settled side with waiting | ⟨size', rfl⟩
      next => simp [waiting (handling.idle_of_completed ending.unsettled finished)] at malformed
      next =>
        cases ending with
        | malformed _ _ found => rw [Extraction.malformed.inj (found.symm.trans malformed)]

theorem Turnout.handler_iff {first : Session} (turnout : Turnout first happenings session) :
    session.phase.verdict? = some (.failed (.handler side fault)) ↔
      .returned side (.error fault) ∈ happenings := by
  constructor
  next =>
    intro verdict
    cases turnout with
    | waits _ unsettled => simp [unsettled] at verdict
    | ended _ ending _ parting =>
      rw [parting.verdict, Option.some.injEq] at verdict
      subst verdict
      cases ending
      simp
  next =>
    intro member
    obtain ⟨before, after, rfl⟩ := List.append_of_mem member
    obtain ⟨last, outcome, _, ending, parting⟩ := turnout.of_fatal rfl
    rw [parting.verdict]
    cases ending
    rfl

def forwarding (source : Side) (chunk : Bytes) : List Happening :=
  [.took source (some (.chunk .control chunk)), .did (.write source.opposite .control chunk)]

theorem Changes.forwarding_eq {source : Side} {chunk : Bytes}
    (changes : Changes (fresh recording) happenings session)
    (phase : session.phase = .forwarding source chunk) :
    ∃ before, happenings = before ++ forwarding source chunk := by
  have start : ∀ source chunk, (fresh recording).phase = .forwarding source chunk →
      ∃ before, [] = before ++ forwarding source chunk := by simp [fresh]
  refine changes.induction [] (motive := fun past session =>
    ∀ source chunk, session.phase = .forwarding source chunk →
      ∃ before, past = before ++ forwarding source chunk) start ?_ source chunk phase
  intro past happenings session session' known change source chunk phase
  cases change with
  | control =>
    obtain ⟨rfl, rfl⟩ := Phase.forwarding.inj phase
    exact ⟨past, rfl⟩
  | queued | requested => simpa using known source chunk phase
  | sent polled | returned polled | dispatched polled =>
    have same : session.phase = .forwarding source chunk := phase
    simp [polls, same] at polled
  | _ => simp_all

theorem Turnout.forward_iff (turnout : Turnout (fresh recording) happenings session) :
    session.phase.verdict? = some (.failed (.forward side fault)) ↔
      ∃ before chunk after, happenings =
        before ++ forwarding side chunk ++ .forwarded (.error fault) :: after := by
  constructor
  next =>
    intro verdict
    cases turnout with
    | waits _ unsettled => simp [unsettled] at verdict
    | @ended _ _ said _ _ _ changes ending _ parting =>
      rw [parting.verdict, Option.some.injEq] at verdict
      subst verdict
      cases ending with
      | @unforwarded _ chunk _ phase =>
        obtain ⟨before, rfl⟩ := changes.forwarding_eq phase
        exact ⟨before, chunk, said, by simp⟩
  next =>
    rintro ⟨before, chunk, after, rfl⟩
    obtain ⟨last, outcome, changes, ending, parting⟩ := turnout.of_fatal rfl
    rw [parting.verdict]
    cases ending with
    | unforwarded phase =>
      obtain ⟨before', same⟩ := changes.forwarding_eq phase
      have same := (List.append_inj' same rfl).2
      simp only [forwarding, List.cons.injEq, Happening.took.injEq] at same
      rw [same.1.1]

theorem fresh_settled (recording : Recording) (side : Side) :
    ((fresh recording).half side).Settled := by
  cases side <;> exact fun _ => rfl

theorem failures_blame_their_side {moves : List Move}
    (run : (fresh recording).journal moves = some (happenings, session)) (side : Side) :
    -- The run may have come to any point where the session waits, so that the outcome is settled
    -- there as soon as there is a reason for it.
    (∀ size, session.phase.verdict? = some (.failed (.framing side size)) ↔
      ∃ packets left, Framing (taken side .data happenings).flatten packets (.malformed size) left ∧
        calls side happenings = completed packets) ∧
    (∀ fault, session.phase.verdict? = some (.failed (.handler side fault)) ↔
      .returned side (.error fault) ∈ happenings) ∧
    (∀ fault, session.phase.verdict? = some (.failed (.forward side fault)) ↔
      ∃ before chunk after, happenings =
        before ++ forwarding side chunk ++ .forwarded (.error fault) :: after) ∧
    -- A failed call and failed forwarding are the last things seen but for the parting.
    (∀ before happening after, happenings = before ++ happening :: after →
      happening.fatal = true → ∀ later ∈ after, later.parts = true) ∧
    -- A settled outcome is the one that the session ends with, and nothing more is taken or done.
    (∀ outcome, session.outcome? = some outcome → session.phase.verdict? = some outcome) ∧
    ∀ outcome, session.phase.verdict? = some outcome →
      (∀ more later last, session.journal more = some (later, last) →
        last.phase.verdict? = some outcome ∧ ∀ happening ∈ later, happening.parts = true) ∧
      ∃ rest last, session.journal session.phase.releases = some (rest, last) ∧
        last.outcome? = some outcome := by
  have turnout := turnout_of_journal rfl (fresh_settled recording) run
  refine ⟨fun size => turnout.framing_iff, fun fault => turnout.handler_iff,
    fun fault => turnout.forward_iff, ?_, ?_, ?_⟩
  next =>
    rintro before happening after rfl fatal
    obtain ⟨last, outcome, _, _, parting⟩ := turnout.of_fatal fatal
    exact parting.parts
  next =>
    intro outcome ended
    rw [phase_of_outcome? ended]
    rfl
  next =>
    intro outcome verdict
    cases turnout with
    | waits _ unsettled => simp [unsettled] at verdict
    | ended _ _ _ parting =>
      obtain rfl := Option.some.inj (parting.verdict.symm.trans verdict)
      refine ⟨fun more later last ran => ?_, parting.comes_to_end⟩
      have parted := parting.journal ran
      exact ⟨parted.verdict, fun happening member =>
        parted.parts happening (List.mem_append_right _ member)⟩

def undersized : Header :=
  { tag := 0x8001, size := 4, code := 0 }

-- Both sides go wrong, but the call for the packet before it still hides the simulator's header.
def hiddenHeader : List Move :=
  [.start ⟨{}, {}⟩, .arrive .simulator (.chunk .data (ping.serialize ++ undersized.encode)),
    .take .simulator (.millis 0), .arrive .client (.chunk .data undersized.encode),
    .take .client (.millis 1)]

def failingCall : List Move :=
  [.start ⟨{}, {}⟩, .arrive .simulator (.chunk .data ping.serialize), .take .simulator (.millis 0),
    .arrive .client (.chunk .data ping.serialize), .take .client (.millis 1),
    .returned .simulator (.error ⟨.brokenPipe, none⟩)]

def failingForward : List Move :=
  [.start ⟨{}, {}⟩, .arrive .client (.chunk .control [0, 7]), .take .client (.millis 0),
    .forwarded (.error ⟨.brokenPipe, none⟩)]

theorem blame_of_failing_sessions :
    (∃ happenings session, (fresh .absent).journal hiddenHeader = some (happenings, session) ∧
      calls .simulator happenings = [.started ping] ∧
      session.phase.verdict? = some (.failed (.framing .client 4))) ∧
    (∃ happenings session, (fresh .absent).journal failingCall = some (happenings, session) ∧
      session.phase.verdict? = some (.failed (.handler .simulator ⟨.brokenPipe, none⟩))) ∧
    ∃ happenings session, (fresh .absent).journal failingForward = some (happenings, session) ∧
      session.phase.verdict? = some (.failed (.forward .client ⟨.brokenPipe, none⟩)) := by
  refine ⟨?_, ?_, ?_⟩
  next =>
    have run : ∃ happenings session,
        (fresh .absent).journal hiddenHeader = some (happenings, session) ∧
          calls .simulator happenings = [.started ping] ∧ calls .client happenings = [] ∧
            (taken .client .data happenings).flatten = undersized.encode ++ [] :=
      ⟨_, _, rfl, rfl, rfl, rfl⟩
    obtain ⟨happenings, session, run, unanswered, uncalled, header⟩ := run
    have framing : Framing (undersized.encode ++ []) [] (.malformed 4) _ := .malformed (by decide)
    have blamed := (failures_blame_their_side run .client).1 4
    exact ⟨happenings, session, run, unanswered, blamed.mpr ⟨[], _, header ▸ framing, uncalled⟩⟩
  next =>
    have run : ∃ happenings session,
        (fresh .absent).journal failingCall = some (happenings, session) ∧
          .returned .simulator (.error ⟨.brokenPipe, none⟩) ∈ happenings :=
      ⟨_, _, rfl, by simp [observe]⟩
    obtain ⟨happenings, session, run, failed⟩ := run
    have blamed := (failures_blame_their_side run .simulator).2.1 ⟨.brokenPipe, none⟩
    exact ⟨happenings, session, run, blamed.mpr failed⟩
  next =>
    have run : ∃ before happenings session,
        (fresh .absent).journal failingForward = some (happenings, session) ∧
          happenings = before ++ forwarding .client [0, 7] ++
            [.forwarded (.error ⟨.brokenPipe, none⟩), .did (.close .simulator)] :=
      ⟨[.did (.takeEvents .simulator), .did (.takeEvents .client), .did (.resume .simulator),
        .did (.resume .client)], _, _, rfl, rfl⟩
    obtain ⟨before, happenings, session, run, failed⟩ := run
    have blamed := (failures_blame_their_side run .client).2.2.1 ⟨.brokenPipe, none⟩
    exact ⟨happenings, session, run, blamed.mpr ⟨before, _, _, failed⟩⟩

end

end TpmRelay.Session
