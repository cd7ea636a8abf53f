import TpmRelay.Proofs.Session.Parting

set_option autoImplicit false

namespace TpmRelay.Session

def Phase.waits : Phase → Bool
  | relaying | forwarding .. | draining .. => true
  | opening | releasing .. | ended _ => false

def Phase.forwards : Phase → Bool
  | forwarding .. => true
  | opening | relaying | draining .. | releasing .. | ended _ => false

def Move.settles : Move → Bool
  | forwarded _ => true
  | _ => false

variable {session next : Session}

theorem journal_shutdown (requested : session.shutdownRequested = true)
    (waits : session.phase.waits = true) (free : session.phase.forwards = false) :
    ∃ last, session.journal [.shutdown, .released, .released] =
        some ([.shutdown, .did (.close .simulator), .did (.close .client)] ++
          if session.recording.works then [.did .flush] else [], last) ∧
      last.outcome? = some (.exited .shutdown) := by
  have stops : session.step .shutdown =
      some ([.close .simulator], (session.conclude (.exited .shutdown)).2) := by
    cases phase : session.phase <;> simp_all [Phase.waits, Phase.forwards, step, conclude]
  have parting := Parting.conclude session (.exited .shutdown)
  obtain ⟨rest, last, released, final⟩ := parting.comes_to_end
  have farewell := (parting.journal released).farewell
  rw [phase_of_outcome? final, Phase.farewell] at farewell
  rw [phase_conclude, Phase.releases] at released
  refine ⟨last, ?_, final⟩
  rw [journal_step stops, released, List.cons_append, ← farewell]
  rfl

theorem step_forwarding {move : Move} {effects : List Effect}
    (forwards : session.phase.forwards = true) (unsettled : move.settles = false)
    (stepped : session.step move = some (effects, next)) :
    session.observe move = [] ∧ effects = [] ∧ next.phase = session.phase := by
  cases phase : session.phase with
  | forwarding source chunk =>
    cases move with
    | arrive | hangUp | requestShutdown =>
      obtain ⟨rfl, rfl⟩ := Prod.mk.inj (Option.some.inj stepped)
      exact ⟨rfl, rfl, phase⟩
    | forwarded => simp [Move.settles] at unsettled
    | _ => simp [step, polls, phase] at stepped
  | _ => simp [phase, Phase.forwards] at forwards

theorem journal_forwarding {moves : List Move} {happenings : List Happening}
    (run : session.journal moves = some (happenings, next))
    (forwards : session.phase.forwards = true)
    (unsettled : ∀ move ∈ moves, move.settles = false) :
    happenings = [] ∧ next.phase = session.phase := by
  induction moves generalizing session happenings with
  | nil =>
    obtain ⟨rfl, rfl⟩ := Prod.mk.inj (Option.some.inj run)
    exact ⟨rfl, rfl⟩
  | cons move moves ih =>
    obtain ⟨first, later⟩ := List.forall_mem_cons.mp unsettled
    obtain ⟨effects, middle, rest, stepped, ran, rfl⟩ := journal_cons run
    obtain ⟨silent, rfl, same⟩ := step_forwarding forwards first stepped
    obtain ⟨rfl, kept⟩ := ih ran (same ▸ forwards) later
    exact ⟨by simp [silent], kept.trans same⟩

theorem turn_settles (session : Session) :
    session.turn.2.phase = .relaying ∨
      ∃ failure, session.turn.2.phase.verdict? = some (.failed failure) := by
  unfold turn
  cases session.dispatch .simulator with
  | error failure => exact .inr ⟨failure, rfl⟩
  | ok progress =>
    obtain ⟨effects, next⟩ := progress
    simp only
    cases next.dispatch .client with
    | error failure => exact .inr ⟨failure, rfl⟩
    | ok progress => exact .inl rfl

theorem step_forwarded {result : Except Fault Unit} {effects : List Effect}
    (stepped : session.step (.forwarded result) = some (effects, next)) :
    next.phase = .relaying ∨ ∃ failure, next.phase.verdict? = some (.failed failure) := by
  cases phase : session.phase with
  | forwarding source chunk =>
    cases result with
    | ok =>
      have turned : session.turn = (effects, next) := by simpa [step, phase] using stepped
      have settled := turn_settles session
      rwa [turned] at settled
    | error fault =>
      have failed : session.fail (.forward source fault) = (effects, next) := by
        simpa [step, phase] using stepped
      obtain rfl : (session.fail (.forward source fault)).2 = next := congrArg Prod.snd failed
      exact .inr ⟨.forward source fault, rfl⟩
  | _ => cases result <;> simp [step, phase] at stepped

theorem shutdown_waits_for_forwarding (session : Session) (waits : session.phase.waits = true) :
    ∃ told, session.step .requestShutdown = some ([], told) ∧ told.phase = session.phase ∧
      (session.phase.forwards = false →
        ∃ last, told.journal [.shutdown, .released, .released] =
            some ([.shutdown, .did (.close .simulator), .did (.close .client)] ++
              if session.recording.works then [.did .flush] else [], last) ∧
          last.outcome? = some (.exited .shutdown)) ∧
      (session.phase.forwards = true →
        told.step .shutdown = none ∧
        (∀ moves happenings last, (∀ move ∈ moves, move.settles = false) →
          told.journal moves = some (happenings, last) →
            happenings = [] ∧ last.phase = session.phase) ∧
        ∀ result effects next, told.step (.forwarded result) = some (effects, next) →
          next.phase = .relaying ∨ ∃ failure, next.phase.verdict? = some (.failed failure)) := by
  let told : Session := { session with shutdownRequested := true }
  refine ⟨told, rfl, rfl, ?_, ?_⟩
  next =>
    intro free
    have requested : told.shutdownRequested = true := rfl
    exact journal_shutdown requested waits free
  next =>
    intro forwards
    refine ⟨?_, ?_, fun _ _ _ stepped => step_forwarded stepped⟩
    next => cases phase : session.phase <;> simp_all [Phase.forwards, step, told]
    next =>
      intro moves happenings last unsettled run
      have waited := journal_forwarding run forwards unsettled
      exact waited

-- The simulator sends control bytes while the client takes none, and the session is told to stop.
def stalled : List Move :=
  [.start ⟨{}, {}⟩, .arrive .simulator (.chunk .control [0, 7]), .take .simulator (.millis 0),
    .requestShutdown]

theorem stalled_ignores_shutdown :
    ¬ ∀ moves happenings session, (fresh .absent).journal moves = some (happenings, session) →
      session.phase.waits = true → session.shutdownRequested = true →
        (session.step .shutdown).isSome := by
  intro honoured
  obtain ⟨happenings, session, run, waits, requested, refused⟩ : ∃ happenings session,
      (fresh .absent).journal stalled = some (happenings, session) ∧
        session.phase.waits = true ∧ session.shutdownRequested = true ∧
          session.step .shutdown = none := ⟨_, _, rfl, rfl, rfl, rfl⟩
  simpa [refused] using honoured stalled happenings session run waits requested

theorem shutdown_around_stall :
    (∃ happenings session told last,
      (fresh .absent).journal (stalled.take 2) = some (happenings, session) ∧
      session.step .requestShutdown = some ([], told) ∧
      told.journal [.shutdown, .released, .released] =
        some ([.shutdown, .did (.close .simulator), .did (.close .client)], last)) ∧
    ∃ happenings session told,
      (fresh .absent).journal (stalled.take 3) = some (happenings, session) ∧
      session.step .requestShutdown = some ([], told) ∧ told.step .shutdown = none ∧
      ∀ effects next, told.step (.forwarded (.ok ())) = some (effects, next) →
        next.phase = .relaying ∨ ∃ failure, next.phase.verdict? = some (.failed failure) := by
  constructor
  next =>
    obtain ⟨happenings, session, run, waits, free, idle⟩ : ∃ happenings session,
        (fresh .absent).journal (stalled.take 2) = some (happenings, session) ∧
          session.phase.waits = true ∧ session.phase.forwards = false ∧
            session.recording.works = false := ⟨_, _, rfl, rfl, rfl, rfl⟩
    obtain ⟨told, asked, -, stops, -⟩ := shutdown_waits_for_forwarding session waits
    obtain ⟨last, stopped, -⟩ := stops free
    exact ⟨happenings, session, told, last, run, asked, by simpa [idle] using stopped⟩
  next =>
    obtain ⟨happenings, session, run, waits, forwards⟩ : ∃ happenings session,
        (fresh .absent).journal (stalled.take 3) = some (happenings, session) ∧
          session.phase.waits = true ∧ session.phase.forwards = true := ⟨_, _, rfl, rfl, rfl⟩
    obtain ⟨told, asked, -, -, stuck⟩ := shutdown_waits_for_forwarding session waits
    obtain ⟨refused, -, settled⟩ := stuck forwards
    exact ⟨happenings, session, told, run, asked, refused, settled _⟩

end TpmRelay.Session
