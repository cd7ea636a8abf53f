import TpmRelay.Proofs.Session.Parting

set_option autoImplicit false

namespace TpmRelay

theorem Side.forall_of_opposite {holds : Side → Prop} (origin : Side) (there : holds origin)
    (opposite : holds origin.opposite) (side : Side) : holds side := by
  cases origin <;> cases side <;> assumption

namespace Session

def Half.Settled (half : Half) : Prop :=
  half.call = none → half.stream.extract.1 = .incomplete

/-- What has come of a session that was `first`. -/
inductive Turnout (first : Session) : List Happening → Session → Prop where
  | waits {past : List Happening} {session : Session} (changes : Changes first past session)
      (unsettled : session.phase.verdict? = none)
      (settled : ∀ side, (session.half side).Settled) : Turnout first past session
  | ended {active cause said : List Happening} {outcome : Outcome} {last session : Session}
      (changes : Changes first active last) (ending : Ending last cause outcome)
      (settled : ∀ side, (last.half side).Settled ∨
        ∃ size, outcome = .failed (.framing side size))
      (parting : Parting outcome last.recording said session) :
      Turnout first (active ++ cause ++ said) session

variable {session session' : Session} {side : Side}

theorem Turnout.after {past later : List Happening} {next : Session}
    (changes : Changes session past session') (turnout : Turnout session' later next) :
    Turnout session (past ++ later) next := by
  cases turnout with
  | waits rest unsettled settled => exact .waits (changes.trans rest) unsettled settled
  | ended rest ending settled parting =>
    have turnout := Turnout.ended (changes.trans rest) ending settled parting
    simpa using turnout

theorem Turnout.concluded {cause : List Happening} {outcome : Outcome}
    (settled : ∀ side, (session.half side).Settled) (ending : Ending session cause outcome) :
    Turnout session (cause ++ [.did (.close .simulator)]) (session.conclude outcome).2 :=
  .ended .refl ending (fun side => .inl (settled side)) (.conclude ..)

theorem Turnout.blamed {size : UInt32} (polled : session.polls side = true)
    (opposite : (session.half side.opposite).Settled) (idle : (session.half side).call = none)
    (malformed : (session.half side).stream.extract.1 = .malformed size) :
    Turnout session [.did (.close .simulator)]
      (session.conclude (.failed (.framing side size))).2 := by
  refine Turnout.ended .refl (.malformed polled idle malformed) ?_ (.conclude ..)
  exact Side.forall_of_opposite side (.inr ⟨_, rfl⟩) (.inl opposite)

theorem dispatch_of_settled (settled : (session.half side).Settled) :
    session.dispatch side = .ok ([], session) := by
  have spec := session.dispatch_spec side
  generalize session.dispatch side = result at spec
  cases spec with
  | busy | incomplete => rfl
  | malformed idle malformed => simp [settled idle] at malformed
  | packet idle extracted =>
    have nothing := settled idle
    simp [extracted] at nothing

@[simp] theorem half_withHalf_opposite (f : Half → Half) :
    (session.withHalf side f).half side.opposite = session.half side.opposite := by
  cases side <;> simp [half_withHalf, Side.opposite]

theorem Dispatch.half_opposite {effects : List Effect}
    (dispatch : Dispatch session side (.ok (effects, session'))) :
    session'.half side.opposite = session.half side.opposite := by
  cases dispatch with
  | busy | incomplete => rfl
  | packet => exact half_withHalf_opposite _

theorem turn_eq (opposite : (session.half side.opposite).Settled) :
    session.turn = match session.dispatch side with
      | .error failure => session.fail failure
      | .ok (effects, next) => (effects, { next with phase := .relaying }) := by
  cases side with
  | client =>
    have first : session.dispatch .simulator = .ok ([], session) := dispatch_of_settled opposite
    rw [turn, first]
    cases dispatched : session.dispatch .client <;> simp [dispatched]
  | simulator =>
    have spec := session.dispatch_spec .simulator
    unfold turn
    cases dispatched : session.dispatch .simulator with
    | error => rfl
    | ok progress =>
      obtain ⟨effects, next⟩ := progress
      rw [dispatched] at spec
      have settled : (next.half .client).Settled := spec.half_opposite ▸ opposite
      simp [dispatch_of_settled settled]

theorem Dispatch.turnout {effects : List Effect} (polled : session.polls side = true)
    (opposite : (session.half side.opposite).Settled)
    (dispatch : Dispatch session side (.ok (effects, session'))) :
    Turnout session (deeds effects) session' := by
  obtain ⟨changes, phase⟩ := dispatch.changes polled
  refine .waits changes (phase ▸ verdict?_of_polls polled) ?_
  refine Side.forall_of_opposite side ?_ (dispatch.half_opposite ▸ opposite)
  cases dispatch with
  | busy busy => exact fun idle => by simp [idle] at busy
  | incomplete _ incomplete => exact fun _ => incomplete
  | packet => exact fun idle => by simp [half_withHalf] at idle

theorem turn_turnout (relaying : session.phase = .relaying)
    (opposite : (session.half side.opposite).Settled) :
    Turnout session (deeds session.turn.1) session.turn.2 := by
  have polled : session.polls side = true := by simp [polls, relaying]
  have spec := session.dispatch_spec side
  rw [turn_eq opposite]
  cases dispatched : session.dispatch side with
  | error failure =>
    rw [dispatched] at spec
    cases spec with
    | malformed idle malformed =>
      exact .blamed polled opposite idle malformed
  | ok progress =>
    obtain ⟨effects, next⟩ := progress
    rw [dispatched] at spec
    have kept := (spec.changes polled).2.trans relaying
    have same : { next with phase := .relaying } = next := by rw [← kept]
    simpa [same] using spec.turnout polled opposite

theorem drain_cons_turnout {closed : Side} {sides : List Side}
    (draining : session.phase = .draining closed side)
    (opposite : (session.half side.opposite).Settled)
    (goesOn : (session.half side).call = none → (session.half side).stream.extract.1 = .incomplete →
      Turnout session (deeds (session.drain closed sides).1) (session.drain closed sides).2) :
    Turnout session (deeds (session.drain closed (side :: sides)).1)
      (session.drain closed (side :: sides)).2 := by
  have polled : session.polls side = true := by simp [polls, draining]
  have spec := session.dispatch_spec side
  rw [drain]
  generalize session.dispatch side = result at spec
  cases spec with
  | busy busy =>
    have same : { session with phase := .draining closed side } = session := by rw [← draining]
    simpa [busy, same] using Dispatch.turnout polled opposite (.busy busy)
  | malformed idle malformed => exact .blamed polled opposite idle malformed
  | packet idle extracted =>
    simp only [half_withHalf, if_true, Option.isSome_some, ← draining]
    exact Dispatch.turnout polled opposite (.packet idle extracted)
  | incomplete idle incomplete => simpa [idle] using goesOn idle incomplete

theorem drain_client_turnout {closed : Side} (draining : session.phase = .draining closed .client)
    (simulator : (session.half .simulator).Settled) :
    Turnout session (deeds (session.drain closed [.client]).1)
      (session.drain closed [.client]).2 := by
  refine drain_cons_turnout draining simulator fun idle incomplete => ?_
  have settled : ∀ side, (session.half side).Settled :=
    Side.forall_of_opposite .client (fun _ => incomplete) simulator
  exact .concluded settled (.drained draining idle incomplete)

theorem drain_simulator_turnout {closed : Side}
    (draining : session.phase = .draining closed .simulator)
    (client : (session.half .client).Settled) :
    Turnout session (deeds (session.drain closed [.simulator, .client]).1)
      (session.drain closed [.simulator, .client]).2 := by
  refine drain_cons_turnout draining client fun idle incomplete => ?_
  have pass := Changes.single (.passed draining idle incomplete)
  have rest : Turnout { session with phase := .draining closed .client } _ _ :=
    drain_client_turnout rfl fun _ => incomplete
  rw [drain_phase] at rest
  exact rest.after pass

theorem drain_turnout {closed current : Side} (draining : session.phase = .draining closed current)
    (opposite : (session.half current.opposite).Settled) :
    Turnout session (deeds (session.drain closed (drainOrder current)).1)
      (session.drain closed (drainOrder current)).2 := by
  cases current with
  | simulator => exact drain_simulator_turnout draining opposite
  | client => exact drain_client_turnout draining opposite

theorem start_turnout (opening : session.phase = .opening) (answers : Sides Opening)
    (settled : ∀ side, (session.half side).Settled) :
    Turnout session (deeds (session.start answers).1) (session.start answers).2 := by
  have asked := asked_changes opening (attempt_openingCalls answers)
  unfold start
  generalize attempt (openingCalls answers) = attempted at asked
  obtain ⟨effects, result⟩ := attempted
  cases result with
  | error error =>
    have ending : Ending session [] (.failed (.link error)) := .refused opening
    simpa [fail] using (Turnout.concluded settled ending).after asked
  | ok =>
    have opened := asked.trans (.single (.opened opening))
    have rest : Turnout { session with phase := .relaying } _ _ :=
      turn_turnout rfl (settled Side.client.opposite)
    rw [turn_phase] at rest
    simpa using rest.after opened

theorem take_turnout {time : Capture.Timestamp} {progress : Progress}
    (relaying : session.phase = .relaying) (settled : ∀ side, (session.half side).Settled)
    (taken : session.take side time = some progress) :
    Turnout session (session.observe (.take side time) ++ deeds progress.1) progress.2 := by
  obtain ⟨⟨event, inbox⟩, found, rfl⟩ := Option.map_eq_some_iff.mp taken
  have seen : session.observe (.take side time) = [.took side event] := by simp [observe, found]
  rw [seen]
  -- Only data makes a side worth a look, and only its own side.
  have closed {event : Option Link.Event}
      (found : (session.half side).inbox.take = some (event, inbox))
      (closing : event = none ∨ event = some .closed) :
      Turnout session [.took side event]
        { session.withHalf side fun half => { half with inbox } with
          phase := .draining side .simulator } := by
    refine .waits (.single (.closed relaying found closing)) rfl fun other => ?_
    simpa [Half.Settled] using settled other
  cases event with
  | none => exact closed found (.inl rfl)
  | some event =>
    cases event with
    | closed => exact closed found (.inr rfl)
    | chunk channel bytes =>
      cases channel with
      | control =>
        have change := Changes.single (.control time relaying found)
        refine .waits (by simpa [receive, record_withHalf] using change) rfl fun other => ?_
        simpa [receive, record_withHalf, Half.Settled] using settled other
      | data =>
        have change := Changes.single (.data time relaying found)
        let next := (session.record ⟨⟨side, .data⟩, time, bytes⟩).2.withHalf side fun half =>
          { half with inbox, stream := half.stream.ingest bytes }
        have opposite : (next.half side.opposite).Settled := by simpa [next] using settled side.opposite
        have rest : Turnout next _ _ := turn_turnout (by simpa [next] using relaying) opposite
        simpa [receive, record_withHalf, withHalf_withHalf, next] using rest.after change

theorem complete_turnout {result : Except Fault Unit} {next : Session → Progress}
    (polled : session.polls side = true) (busy : (session.half side).call.isSome)
    (settled : ∀ side, (session.half side).Settled)
    (goesOn : ∀ later : Session, later.phase = session.phase →
      (later.half side.opposite).Settled → Turnout later (deeds (next later).1) (next later).2) :
    Turnout session (.returned side result :: deeds (session.complete side result next).1)
      (session.complete side result next).2 := by
  cases result with
  | ok =>
    have rest := goesOn (session.withHalf side fun half => { half with call := none }) rfl
      (by simpa using settled side.opposite)
    exact rest.after (.single (.returned polled busy))
  | error fault =>
    have ending : Ending session _ (.failed (.handler side fault)) := .faulty polled busy
    have ended := Turnout.concluded settled ending
    simpa [complete, fail, conclude_withHalf_call] using ended

theorem step_turnout {move : Move} {progress : Progress}
    (unsettled : session.phase.verdict? = none) (settled : ∀ side, (session.half side).Settled)
    (stepped : session.step move = some progress) :
    Turnout session (session.observe move ++ deeds progress.1) progress.2 := by
  -- Moves that look at no side leave call and stream of every side alone.
  have quiet {happenings : List Happening} {next : Session} (change : Change session happenings next)
      (phase : next.phase = session.phase)
      (same : ∀ side, (next.half side).stream = (session.half side).stream ∧
        (next.half side).call = (session.half side).call) : Turnout session happenings next := by
    refine .waits (.single change) (phase ▸ unsettled) fun side => ?_
    simpa [Half.Settled, same side] using settled side
  unfold step at stepped
  split at stepped
  next side event _ =>
    cases stepped
    exact quiet .queued rfl (by simp)
  next side _ =>
    cases stepped
    exact quiet .queued rfl (by simp)
  next =>
    cases stepped
    exact quiet .requested rfl (by simp)
  next answers opening =>
    obtain rfl := Option.some.inj stepped
    exact start_turnout opening answers settled
  next side time relaying => exact take_turnout relaying settled stepped
  next source chunk forwarding =>
    obtain rfl := Option.some.inj stepped
    have rest : Turnout { session with phase := .relaying } _ _ :=
      turn_turnout rfl (settled Side.client.opposite)
    rw [turn_phase] at rest
    exact rest.after (.single (.forwarded forwarding))
  next fault source chunk forwarding =>
    cases stepped
    exact .concluded settled (.unforwarded forwarding)
  next caller target packet =>
    split at stepped
    next possible =>
      cases stepped
      exact quiet (.sent possible.2 possible.1) rfl (by simp)
    next => simp at stepped
  next side result relaying =>
    split at stepped
    next busy =>
      obtain rfl := Option.some.inj stepped
      have polled : session.polls side = true := by simp [polls, relaying]
      exact complete_turnout polled busy settled fun later kept opposite =>
        turn_turnout (kept.trans relaying) opposite
    next => simp at stepped
  next side result closed current draining =>
    split at stepped
    next possible =>
      obtain ⟨rfl, busy⟩ := possible
      obtain rfl := Option.some.inj stepped
      have polled : session.polls side = true := by simp [polls, draining]
      exact complete_turnout polled busy settled fun later kept opposite =>
        drain_turnout (kept.trans draining) opposite
    next => simp at stepped
  next closed current draining =>
    split at stepped
    next idle =>
      obtain rfl := Option.some.inj stepped
      exact drain_turnout draining (settled current.opposite)
    next => simp at stepped
  next relaying =>
    split at stepped
    next requested =>
      cases stepped
      exact .concluded settled (.shutdown (.inl relaying) requested)
    next => simp at stepped
  next closed current draining =>
    split at stepped
    next requested =>
      cases stepped
      exact .concluded settled (.shutdown (.inr ⟨_, _, draining⟩) requested)
    next => simp at stepped
  next outcome releasing => simp [releasing, Phase.verdict?] at unsettled
  next outcome releasing => simp [releasing, Phase.verdict?] at unsettled
  next => simp at stepped

theorem turnout_of_journal {moves : List Move} {happenings : List Happening}
    (unsettled : session.phase.verdict? = none) (settled : ∀ side, (session.half side).Settled)
    (run : session.journal moves = some (happenings, session')) :
    Turnout session happenings session' := by
  induction moves generalizing session happenings with
  | nil =>
    obtain ⟨rfl, rfl⟩ := Prod.mk.inj (Option.some.inj run)
    exact .waits .refl unsettled settled
  | cons move moves ih =>
    obtain ⟨effects, next, later, stepped, rest, rfl⟩ := journal_cons run
    have turnout : Turnout session (session.observe move ++ deeds effects) next :=
      step_turnout unsettled settled stepped
    generalize session.observe move ++ deeds effects = now at turnout
    cases turnout with
    | waits changes unsettled settled => exact (ih unsettled settled rest).after changes
    | ended changes ending settled parting =>
      rw [List.append_assoc]
      exact .ended changes ending settled (parting.journal rest)

end Session

end TpmRelay
