import TpmRelay.Proofs.Reassembly.Framing
import TpmRelay.Proofs.Session.Journal

set_option autoImplicit false

namespace TpmRelay

@[simp] theorem Sides.get_modify {α : Type} (pair : Sides α) (side other : Side) (f : α → α) :
    (pair.modify side f).get other = if other = side then f (pair.get side) else pair.get other := by
  simp [Sides.modify]

namespace Session

section Views

variable (session : Session) (side other : Side) (f : Half → Half) (outcome : Outcome)

@[simp] theorem half_mk (phase : Phase) (halves : Sides Half) (recording : Recording)
    (requested : Bool) :
    (Session.mk phase halves recording requested).half side = halves.get side := rfl

@[simp] theorem halves_get : session.halves.get side = session.half side := rfl

theorem half_withHalf :
    (session.withHalf side f).half other =
      if other = side then f (session.half side) else session.half other := by
  simp [withHalf]

@[simp] theorem stream_withHalf (same : ∀ half, (f half).stream = half.stream) :
    ((session.withHalf side f).half other).stream = (session.half other).stream := by
  rw [half_withHalf]
  split
  next equal => rw [same, equal]
  next => rfl

@[simp] theorem call_withHalf (same : ∀ half, (f half).call = half.call) :
    ((session.withHalf side f).half other).call = (session.half other).call := by
  rw [half_withHalf]
  split
  next equal => rw [same, equal]
  next => rfl

@[simp] theorem phase_withHalf : (session.withHalf side f).phase = session.phase := rfl

@[simp] theorem recording_withHalf : (session.withHalf side f).recording = session.recording := rfl

@[simp] theorem effects_conclude : (session.conclude outcome).1 = [.close .simulator] := rfl

@[simp] theorem phase_conclude :
    (session.conclude outcome).2.phase = .releasing .simulator outcome := rfl

@[simp] theorem half_conclude :
    (session.conclude outcome).2.half side = { session.half side with call := none } := by
  cases side <;> simp [conclude]

@[simp] theorem phase_finish : (session.finish outcome).2.phase = .ended outcome := by
  cases recording : session.recording <;> simp [finish, recording]

@[simp] theorem half_record (chunk : Capture.Chunk) :
    (session.record chunk).2.half side = session.half side := by
  unfold record
  split
  next => split <;> rfl
  next => rfl

@[simp] theorem phase_record (chunk : Capture.Chunk) :
    (session.record chunk).2.phase = session.phase := by
  unfold record
  split
  next => split <;> rfl
  next => rfl

@[simp] theorem deeds_record (chunk : Capture.Chunk) : deeds (session.record chunk).1 = [] := by
  unfold record
  split
  next => split <;> rfl
  next => rfl

@[simp] theorem deeds_discarded : deeds (session.discarded side) = [] := by
  unfold discarded
  split <;> rfl

theorem withHalf_withHalf (g : Half → Half) :
    (session.withHalf side f).withHalf side g = session.withHalf side fun half => g (f half) := by
  cases side <;> rfl

theorem conclude_withHalf_call (call : Option Packet) :
    (session.withHalf side fun half => { half with call }).conclude outcome =
      session.conclude outcome := by
  cases side <;> rfl

theorem record_withHalf (chunk : Capture.Chunk) :
    (session.withHalf side f).record chunk =
      ((session.record chunk).1, (session.record chunk).2.withHalf side f) := by
  unfold record
  rw [recording_withHalf]
  split
  next => split <;> rfl
  next => rfl

end Views

def Phase.verdict? : Phase → Option Outcome
  | releasing _ outcome | ended outcome => some outcome
  | opening | relaying | forwarding .. | draining .. => none

theorem verdict?_of_polls {session : Session} {side : Side} (polled : session.polls side = true) :
    session.phase.verdict? = none := by
  unfold polls at polled
  split at polled
  next relaying => simp [relaying, Phase.verdict?]
  next draining => simp [draining, Phase.verdict?]
  next => simp at polled

theorem phase_of_outcome? {session : Session} {outcome : Outcome}
    (ended : session.outcome? = some outcome) : session.phase = .ended outcome := by
  unfold outcome? at ended
  split at ended
  next phase => rw [phase, Option.some.inj ended]
  next => simp at ended

/-- How a session comes to its outcome, with what is seen of it before the links are closed. -/
inductive Ending (session : Session) : List Happening → Outcome → Prop where
  | refused {error : Link.Error} (opening : session.phase = .opening) :
      Ending session [] (.failed (.link error))
  | unforwarded {source : Side} {chunk : Bytes} {fault : Fault}
      (forwarding : session.phase = .forwarding source chunk) :
      Ending session [.forwarded (.error fault)] (.failed (.forward source fault))
  | faulty {side : Side} {fault : Fault} (polled : session.polls side = true)
      (busy : (session.half side).call.isSome) :
      Ending session [.returned side (.error fault)] (.failed (.handler side fault))
  | malformed {side : Side} {size : UInt32} (polled : session.polls side = true)
      (idle : (session.half side).call = none)
      (malformed : (session.half side).stream.extract.1 = .malformed size) :
      Ending session [] (.failed (.framing side size))
  | shutdown (waiting : session.phase = .relaying ∨ ∃ closed side, session.phase = .draining closed side)
      (requested : session.shutdownRequested = true) :
      Ending session [.shutdown] (.exited .shutdown)
  | drained {closed : Side} (draining : session.phase = .draining closed .client)
      (idle : (session.half .client).call = none)
      (incomplete : (session.half .client).stream.extract.1 = .incomplete) :
      Ending session [] (.exited (.closed closed))

inductive Change (session : Session) : List Happening → Session → Prop where
  | queued {side : Side} {inbox : Link.Inbox} :
      Change session [] (session.withHalf side fun half => { half with inbox })
  | requested : Change session [] { session with shutdownRequested := true }
  | askedEvents {side : Side} (opening : session.phase = .opening) :
      Change session [.did (.takeEvents side)] session
  | askedResume {side : Side} (opening : session.phase = .opening) :
      Change session [.did (.resume side)] session
  | opened (opening : session.phase = .opening) :
      Change session [] { session with phase := .relaying }
  | closed {side : Side} {event : Option Link.Event} {inbox : Link.Inbox}
      (relaying : session.phase = .relaying)
      (taken : (session.half side).inbox.take = some (event, inbox))
      (closing : event = none ∨ event = some .closed) :
      Change session [.took side event]
        { session.withHalf side fun half => { half with inbox } with
          phase := .draining side .simulator }
  | data {side : Side} {bytes : Bytes} (time : Capture.Timestamp) {inbox : Link.Inbox}
      (relaying : session.phase = .relaying)
      (taken : (session.half side).inbox.take = some (some (.chunk .data bytes), inbox)) :
      Change session [.took side (some (.chunk .data bytes))]
        ((session.record ⟨⟨side, .data⟩, time, bytes⟩).2.withHalf side fun half =>
          { half with inbox, stream := half.stream.ingest bytes })
  | control {side : Side} {bytes : Bytes} (time : Capture.Timestamp) {inbox : Link.Inbox}
      (relaying : session.phase = .relaying)
      (taken : (session.half side).inbox.take = some (some (.chunk .control bytes), inbox)) :
      Change session
        [.took side (some (.chunk .control bytes)), .did (.write side.opposite .control bytes)]
        { (session.record ⟨⟨side, .control⟩, time, bytes⟩).2.withHalf side fun half =>
            { half with inbox } with
          phase := .forwarding side bytes }
  | forwarded {source : Side} {chunk : Bytes} (forwarding : session.phase = .forwarding source chunk) :
      Change session [.forwarded (.ok ())] { session with phase := .relaying }
  | sent {caller target : Side} {packet : Packet} (polled : session.polls caller = true)
      (busy : (session.half caller).call.isSome) :
      Change session [.sent caller target packet, .did (.write target .data packet.serialize)] session
  | returned {side : Side} (polled : session.polls side = true)
      (busy : (session.half side).call.isSome) :
      Change session [.returned side (.ok ())]
        (session.withHalf side fun half => { half with call := none })
  | dispatched {side : Side} {packet : Packet} {stream : Reassembly}
      (polled : session.polls side = true) (idle : (session.half side).call = none)
      (extracted : (session.half side).stream.extract = (.packet packet, stream)) :
      Change session [.did (.dispatch side packet)]
        (session.withHalf side fun half => { half with stream, call := some packet })
  | passed {closed : Side} (draining : session.phase = .draining closed .simulator)
      (idle : (session.half .simulator).call = none)
      (incomplete : (session.half .simulator).stream.extract.1 = .incomplete) :
      Change session [] { session with phase := .draining closed .client }
  | concluded {happenings : List Happening} {outcome : Outcome}
      (ending : Ending session happenings outcome) :
      Change session (happenings ++ [.did (.close .simulator)]) (session.conclude outcome).2
  | released {outcome : Outcome} (releasing : session.phase = .releasing .simulator outcome) :
      Change session [.did (.close .client)] { session with phase := .releasing .client outcome }
  | flushed {outcome : Outcome} {recorder : Capture.Recorder}
      (releasing : session.phase = .releasing .client outcome)
      (recording : session.recording = .active recorder) :
      Change session [.did .flush]
        { session with phase := .ended outcome, recording := .finished recorder }
  | ended {outcome : Outcome} (releasing : session.phase = .releasing .client outcome)
      (unrecorded : ∀ recorder, session.recording ≠ .active recorder) :
      Change session [] { session with phase := .ended outcome }

inductive Changes : Session → List Happening → Session → Prop where
  | refl {session : Session} : Changes session [] session
  | step {first later : List Happening} {session session' session'' : Session}
      (change : Change session first session') (rest : Changes session' later session'') :
      Changes session (first ++ later) session''

variable {session session' session'' : Session}

theorem Changes.single {happenings : List Happening} (change : Change session happenings session') :
    Changes session happenings session' := by
  simpa using Changes.step change .refl

theorem Changes.trans {first later : List Happening} (start : Changes session first session')
    (rest : Changes session' later session'') : Changes session (first ++ later) session'' := by
  induction start with
  | refl => exact rest
  | step change _ ih =>
    rw [List.append_assoc]
    exact .step change (ih rest)

section Dispatch

variable (session : Session) (side : Side)

inductive Dispatch : Except Failure Progress → Prop where
  | busy (busy : (session.half side).call.isSome) : Dispatch (.ok ([], session))
  | incomplete (idle : (session.half side).call = none)
      (incomplete : (session.half side).stream.extract.1 = .incomplete) :
      Dispatch (.ok ([], session))
  | malformed {size : UInt32} (idle : (session.half side).call = none)
      (malformed : (session.half side).stream.extract.1 = .malformed size) :
      Dispatch (.error (.framing side size))
  | packet {packet : Packet} {stream : Reassembly} (idle : (session.half side).call = none)
      (extracted : (session.half side).stream.extract = (.packet packet, stream)) :
      Dispatch (.ok ([.note (.dispatching side packet), .dispatch side packet],
        session.withHalf side fun half => { half with stream, call := some packet }))

theorem dispatch_spec : Dispatch session side (session.dispatch side) := by
  unfold dispatch
  cases call : (session.half side).call with
  | some packet => exact .busy (by simp [call])
  | none =>
    cases extracted : (session.half side).stream.extract with
    | mk outcome stream =>
      cases outcome with
      | incomplete => exact .incomplete call (by simp [extracted])
      | packet packet => exact .packet call extracted
      | malformed size => exact .malformed call (by simp [extracted])

theorem dispatch_phase (phase : Phase) :
    ({ session with phase } : Session).dispatch side =
      (session.dispatch side).map fun (effects, next) => (effects, { next with phase }) := by
  cases call : (session.half side).call with
  | some packet => simp [dispatch, call, Except.map]
  | none =>
    cases extracted : (session.half side).stream.extract with
    | mk outcome stream =>
      cases outcome <;> simp [dispatch, call, extracted, Except.map, withHalf]

end Dispatch

theorem Dispatch.changes {side : Side} {effects : List Effect} (polled : session.polls side = true)
    (dispatch : Dispatch session side (.ok (effects, session'))) :
    Changes session (deeds effects) session' ∧ session'.phase = session.phase := by
  cases dispatch with
  | busy | incomplete => exact ⟨.refl, rfl⟩
  | packet idle extracted => exact ⟨.single (.dispatched polled idle extracted), rfl⟩

theorem Dispatch.ending {side : Side} {failure : Failure} (polled : session.polls side = true)
    (dispatch : Dispatch session side (.error failure)) : Ending session [] (.failed failure) := by
  cases dispatch with
  | malformed idle malformed => exact .malformed polled idle malformed

theorem turn_phase (session : Session) (phase : Phase) :
    ({ session with phase } : Session).turn = session.turn := by
  unfold turn
  rw [dispatch_phase]
  cases session.dispatch .simulator with
  | error failure => rfl
  | ok progress =>
    obtain ⟨effects, next⟩ := progress
    simp only [Except.map]
    rw [dispatch_phase]
    cases next.dispatch .client <;> rfl

theorem turn_changes (relaying : session.phase = .relaying) :
    Changes session (deeds session.turn.1) session.turn.2 := by
  unfold turn
  -- The second side is looked at in the session that the first one left, with its phase unchanged.
  have polled (side : Side) : session.polls side = true := by simp [polls, relaying]
  have first := session.dispatch_spec .simulator
  cases dispatched : session.dispatch .simulator with
  | error failure =>
    rw [dispatched] at first
    exact .single (.concluded (first.ending (polled _)))
  | ok progress =>
    obtain ⟨effects, next⟩ := progress
    rw [dispatched] at first
    obtain ⟨start, kept⟩ := first.changes (polled _)
    rw [relaying] at kept
    have second := next.dispatch_spec .client
    have nextPolled : next.polls .client = true := by simp [polls, kept]
    cases later : next.dispatch .client with
    | error failure =>
      rw [later] at second
      have ended := Changes.single (.concluded (second.ending nextPolled))
      simpa [later, fail] using start.trans ended
    | ok progress =>
      obtain ⟨effects', last⟩ := progress
      rw [later] at second
      obtain ⟨rest, kept'⟩ := second.changes nextPolled
      rw [kept] at kept'
      have same : { last with phase := .relaying } = last := by rw [← kept']
      simpa [later, same] using start.trans rest

theorem drain_phase (session : Session) (phase : Phase) (closed : Side) (sides : List Side) :
    ({ session with phase } : Session).drain closed sides = session.drain closed sides := by
  induction sides generalizing session with
  | nil => rfl
  | cons side later ih =>
    unfold drain
    rw [dispatch_phase]
    cases session.dispatch side with
    | error failure => rfl
    | ok progress =>
      obtain ⟨effects, next⟩ := progress
      simp only [Except.map, half_mk, halves_get, ih]
      rfl

theorem drain_client_changes {closed : Side} (draining : session.phase = .draining closed .client) :
    Changes session (deeds (session.drain closed [.client]).1)
      (session.drain closed [.client]).2 := by
  have polled : session.polls .client = true := by simp [polls, draining]
  have spec := session.dispatch_spec .client
  rw [drain]
  generalize session.dispatch .client = result at spec
  cases spec with
  | busy busy =>
    have same : { session with phase := .draining closed .client } = session := by rw [← draining]
    simpa [busy, same] using Changes.refl
  | malformed idle malformed => exact .single (.concluded (.malformed polled idle malformed))
  | packet idle extracted =>
    simp only [half_withHalf, if_true, Option.isSome_some, ← draining]
    exact .single (.dispatched polled idle extracted)
  | incomplete idle incomplete =>
    have ended := Changes.single (.concluded (.drained draining idle incomplete))
    simpa [idle, drain] using ended

theorem drain_simulator_changes {closed : Side}
    (draining : session.phase = .draining closed .simulator) :
    Changes session (deeds (session.drain closed [.simulator, .client]).1)
      (session.drain closed [.simulator, .client]).2 := by
  have polled : session.polls .simulator = true := by simp [polls, draining]
  have spec := session.dispatch_spec .simulator
  rw [drain]
  generalize session.dispatch .simulator = result at spec
  cases spec with
  | busy busy =>
    have same : { session with phase := .draining closed .simulator } = session := by rw [← draining]
    simpa [busy, same] using Changes.refl
  | malformed idle malformed => exact .single (.concluded (.malformed polled idle malformed))
  | packet idle extracted =>
    simp only [half_withHalf, if_true, Option.isSome_some, ← draining]
    exact .single (.dispatched polled idle extracted)
  | incomplete idle incomplete =>
    -- The move does not end here: it goes on with the client before the session waits.
    have pass := Changes.single (.passed draining idle incomplete)
    have rest : Changes { session with phase := .draining closed .client } _ _ :=
      drain_client_changes rfl
    rw [drain_phase] at rest
    simpa [idle] using pass.trans rest

theorem drain_changes {closed current : Side} (draining : session.phase = .draining closed current) :
    Changes session (deeds (session.drain closed (drainOrder current)).1)
      (session.drain closed (drainOrder current)).2 := by
  cases current with
  | simulator => exact drain_simulator_changes draining
  | client => exact drain_client_changes draining

theorem attempt_effects (calls : List (Effect × Except Link.Error Unit)) :
    ∀ effect ∈ (attempt calls).1, effect ∈ calls.map Prod.fst := by
  induction calls with
  | nil => simp [attempt]
  | cons call calls ih =>
    obtain ⟨effect, result⟩ := call
    cases result with
    | error error => simp [attempt]
    | ok =>
      intro other member
      rcases List.mem_cons.mp member with rfl | later
      next => exact List.mem_cons_self
      next => exact List.mem_cons_of_mem _ (ih other later)

theorem asked_changes (opening : session.phase = .opening) {effects : List Effect}
    (asks : ∀ effect ∈ effects, ∃ side, effect = .takeEvents side ∨ effect = .resume side) :
    Changes session (deeds effects) session := by
  induction effects with
  | nil => exact .refl
  | cons effect effects ih =>
    have later := ih fun other member => asks other (List.mem_cons_of_mem _ member)
    obtain ⟨side, rfl | rfl⟩ := asks effect List.mem_cons_self
    next => exact .step (.askedEvents opening) later
    next => exact .step (.askedResume opening) later

theorem attempt_openingCalls (answers : Sides Opening) :
    ∀ effect ∈ (attempt (openingCalls answers)).1,
      ∃ side, effect = .takeEvents side ∨ effect = .resume side := by
  intro effect member
  have called := attempt_effects _ effect member
  simp only [openingCalls, List.map_cons, List.map_nil, List.mem_cons, List.not_mem_nil,
    or_false] at called
  rcases called with rfl | rfl | rfl | rfl
  next => exact ⟨_, .inl rfl⟩
  next => exact ⟨_, .inl rfl⟩
  next => exact ⟨_, .inr rfl⟩
  next => exact ⟨_, .inr rfl⟩

theorem start_changes (opening : session.phase = .opening) (answers : Sides Opening) :
    Changes session (deeds (session.start answers).1) (session.start answers).2 := by
  have asked := asked_changes opening (attempt_openingCalls answers)
  unfold start
  generalize attempt (openingCalls answers) = attempted at asked
  obtain ⟨effects, result⟩ := attempted
  cases result with
  | error error => simpa [fail] using asked.trans (.single (.concluded (.refused opening)))
  | ok =>
    have opened := asked.trans (.single (.opened opening))
    have rest : Changes { session with phase := .relaying } _ _ := turn_changes rfl
    rw [turn_phase] at rest
    simpa using opened.trans rest

theorem take_changes {side : Side} {time : Capture.Timestamp} {progress : Progress}
    (relaying : session.phase = .relaying) (taken : session.take side time = some progress) :
    Changes session (session.observe (.take side time) ++ deeds progress.1) progress.2 := by
  obtain ⟨⟨event, inbox⟩, found, rfl⟩ := Option.map_eq_some_iff.mp taken
  have seen : session.observe (.take side time) = [.took side event] := by simp [observe, found]
  rw [seen]
  cases event with
  | none => exact .single (.closed relaying found (.inl rfl))
  | some event =>
    cases event with
    | closed => exact .single (.closed relaying found (.inr rfl))
    | chunk channel bytes =>
      cases channel with
      | control =>
        have change := Changes.single (.control time relaying found)
        simpa [receive, record_withHalf] using change
      | data =>
        have change := Changes.single (.data time relaying found)
        let next := (session.record ⟨⟨side, .data⟩, time, bytes⟩).2.withHalf side fun half =>
          { half with inbox, stream := half.stream.ingest bytes }
        have rest : Changes next _ _ := turn_changes (by simpa [next] using relaying)
        simpa [receive, record_withHalf, withHalf_withHalf, next] using change.trans rest

theorem complete_changes {side : Side} {result : Except Fault Unit} {next : Session → Progress}
    (polled : session.polls side = true) (busy : (session.half side).call.isSome)
    (goesOn : ∀ later : Session, later.phase = session.phase →
      Changes later (deeds (next later).1) (next later).2) :
    Changes session (.returned side result :: deeds (session.complete side result next).1)
      (session.complete side result next).2 := by
  cases result with
  | ok => exact .step (.returned polled busy) (goesOn _ rfl)
  | error fault =>
    have ending : Ending session _ (.failed (.handler side fault)) := .faulty polled busy
    have ended := Changes.single (.concluded ending)
    simpa [complete, fail, conclude_withHalf_call] using ended

theorem finish_changes {outcome : Outcome} (releasing : session.phase = .releasing .client outcome) :
    Changes session (deeds (session.finish outcome).1) (session.finish outcome).2 := by
  cases recording : session.recording with
  | active recorder =>
    have change := Changes.single (.flushed releasing recording)
    simpa [finish, recording] using change
  | absent | abandoned | finished =>
    have change := Changes.single (.ended releasing (by simp [recording]))
    simpa [finish, recording] using change

theorem step_changes {move : Move} {progress : Progress}
    (stepped : session.step move = some progress) :
    Changes session (session.observe move ++ deeds progress.1) progress.2 := by
  -- One case for each arm of `step`, in its order.
  unfold step at stepped
  split at stepped
  next side event _ =>
    cases stepped
    exact .single .queued
  next side _ =>
    cases stepped
    exact .single .queued
  next =>
    cases stepped
    exact .single .requested
  next answers opening =>
    obtain rfl := Option.some.inj stepped
    exact start_changes opening answers
  next side time relaying => exact take_changes relaying stepped
  next source chunk forwarding =>
    obtain rfl := Option.some.inj stepped
    have rest : Changes { session with phase := .relaying } _ _ := turn_changes rfl
    rw [turn_phase] at rest
    exact .step (.forwarded forwarding) rest
  next fault source chunk forwarding =>
    cases stepped
    exact .single (.concluded (.unforwarded forwarding))
  next caller target packet =>
    split at stepped
    next possible =>
      cases stepped
      exact .single (.sent possible.2 possible.1)
    next => simp at stepped
  next side result relaying =>
    split at stepped
    next busy =>
      obtain rfl := Option.some.inj stepped
      have polled : session.polls side = true := by simp [polls, relaying]
      exact complete_changes polled busy fun later kept => turn_changes (kept.trans relaying)
    next => simp at stepped
  next side result closed current draining =>
    split at stepped
    next possible =>
      obtain ⟨rfl, busy⟩ := possible
      obtain rfl := Option.some.inj stepped
      have polled : session.polls side = true := by simp [polls, draining]
      exact complete_changes polled busy fun later kept => drain_changes (kept.trans draining)
    next => simp at stepped
  next closed current draining =>
    split at stepped
    next idle =>
      obtain rfl := Option.some.inj stepped
      exact drain_changes draining
    next => simp at stepped
  next relaying =>
    split at stepped
    next requested =>
      cases stepped
      exact .single (.concluded (.shutdown (.inl relaying) requested))
    next => simp at stepped
  next closed current draining =>
    split at stepped
    next requested =>
      cases stepped
      exact .single (.concluded (.shutdown (.inr ⟨_, _, draining⟩) requested))
    next => simp at stepped
  next outcome releasing =>
    cases stepped
    exact .single (.released releasing)
  next outcome releasing =>
    obtain rfl := Option.some.inj stepped
    exact finish_changes releasing
  next => simp at stepped

theorem Changes.induction {motive : List Happening → Session → Prop}
    {happenings : List Happening} (past : List Happening) (start : motive past session)
    (change : ∀ {past happenings : List Happening} {session session' : Session},
      motive past session → Change session happenings session' →
        motive (past ++ happenings) session')
    (changes : Changes session happenings session') : motive (past ++ happenings) session' := by
  induction changes generalizing past with
  | refl => simpa using start
  | step first _ ih =>
    rw [← List.append_assoc]
    exact ih _ (change start first)

theorem journal_induction {motive : List Happening → Session → Prop} {moves : List Move}
    {happenings : List Happening} (past : List Happening) (start : motive past session)
    (change : ∀ {past happenings : List Happening} {session session' : Session},
      motive past session → Change session happenings session' →
        motive (past ++ happenings) session')
    (run : session.journal moves = some (happenings, session')) :
    motive (past ++ happenings) session' := by
  induction moves generalizing session past happenings with
  | nil =>
    simp only [journal, Option.some.injEq, Prod.mk.injEq] at run
    obtain ⟨rfl, rfl⟩ := run
    simpa using start
  | cons move moves ih =>
    obtain ⟨effects, next, later, stepped, rest, rfl⟩ := journal_cons run
    rw [← List.append_assoc]
    exact ih _ ((step_changes stepped).induction past start change) rest

end Session

end TpmRelay
