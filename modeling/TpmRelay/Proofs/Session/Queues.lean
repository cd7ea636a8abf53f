import TpmRelay.Proofs.Session.Change
import TpmRelay.Proofs.Session.Unseen

set_option autoImplicit false

namespace TpmRelay.Session

def blind (session : Session) : Session :=
  let empty (half : Half) : Half := { half with inbox := {} }
  { session with halves := (session.halves.modify .simulator empty).modify .client empty }

def Phase.closing : Phase → Bool
  | draining .. | releasing .. | ended _ => true
  | opening | relaying | forwarding .. => false

def Move.queues : Move → Bool
  | arrive .. | hangUp _ => true
  | _ => false

section Blind

variable (session : Session) (side : Side)

@[simp] theorem phase_blind : session.blind.phase = session.phase := rfl

@[simp] theorem recording_blind : session.blind.recording = session.recording := rfl

@[simp] theorem shutdownRequested_blind :
    session.blind.shutdownRequested = session.shutdownRequested := rfl

@[simp] theorem polls_blind : session.blind.polls side = session.polls side := rfl

@[simp] theorem half_blind : session.blind.half side = { session.half side with inbox := {} } := by
  cases side <;> rfl

theorem blind_queued (inbox : Half → Link.Inbox) :
    (session.withHalf side fun half => { half with inbox := inbox half }).blind = session.blind := by
  cases side <;> rfl

theorem unseen_blind : Unseen blind where
  stream session side := by simp
  call session side := by simp
  phase session phase := rfl
  withHalf session side f own := by
    have same (half : Half) : f { half with inbox := {} } = { f half with inbox := {} } := own half {}
    cases side <;> simp [blind, Session.withHalf, Sides.modify, Sides.set, Sides.get, same]

theorem finish_blind (outcome : Outcome) :
    session.blind.finish outcome = Prod.map id blind (session.finish outcome) := by
  cases recording : session.recording <;> simp [finish, recording] <;> rfl

end Blind

variable {session session' : Session}

theorem step_blind {move : Move} (closing : session.phase.closing = true)
    (own : move.queues = false) :
    session.blind.step move = (session.step move).map (Prod.map id blind) := by
  cases move with
  | arrive | hangUp => simp [Move.queues] at own
  | requestShutdown => rfl
  | send caller target packet =>
    simp only [step, half_blind, polls_blind]
    split <;> rfl
  | start | take | forwarded =>
    cases phase : session.phase <;> simp_all [step, Phase.closing]
  | returned side result =>
    cases phase : session.phase with
    | draining closed current =>
      simp only [step, phase_blind, phase, half_blind]
      split
      next => simp [unseen_blind.complete, unseen_blind.drain]
      next => rfl
    | _ => simp_all [step, Phase.closing]
  | drain =>
    cases phase : session.phase with
    | draining closed current =>
      simp only [step, phase_blind, phase, half_blind]
      split
      next => simp [unseen_blind.drain]
      next => rfl
    | _ => simp_all [step, Phase.closing]
  | shutdown =>
    cases phase : session.phase with
    | draining closed current =>
      cases requested : session.shutdownRequested <;> simp [step, phase, requested, unseen_blind.conclude]
    | _ => simp_all [step, Phase.closing]
  | released =>
    cases phase : session.phase with
    | releasing current outcome =>
      cases current with
      | simulator => simp [step, phase, blind]
      | client => simp [step, phase, finish_blind]
    | _ => simp_all [step, Phase.closing]

theorem step_queues {move : Move} (queues : move.queues = true) :
    ∃ next, session.step move = some ([], next) ∧ session.observe move = [] ∧
      next.blind = session.blind ∧ next.phase = session.phase := by
  cases move with
  | arrive side event => exact ⟨_, rfl, rfl, blind_queued _ _ _, rfl⟩
  | hangUp side => exact ⟨_, rfl, rfl, blind_queued _ _ _, rfl⟩
  | _ => simp [Move.queues] at queues

theorem observe_blind {move : Move} {progress : Progress} (closing : session.phase.closing = true)
    (stepped : session.step move = some progress) :
    session.blind.observe move = session.observe move := by
  cases move with
  | take side time => cases phase : session.phase <;> simp_all [step, Phase.closing]
  | _ => rfl

theorem Change.closing {happenings : List Happening} (change : Change session happenings session')
    (closing : session.phase.closing = true) : session'.phase.closing = true := by
  cases change <;> simp_all [Phase.closing]

theorem step_closing {move : Move} {progress : Progress} (closing : session.phase.closing = true)
    (stepped : session.step move = some progress) : progress.2.phase.closing = true := by
  have kept := (step_changes stepped).induction
    (motive := fun _ later => later.phase.closing = true) [] closing fun start change =>
      change.closing start
  exact kept

theorem closing_of_run {moves : List Move} {happenings : List Happening}
    (closing : session.phase.closing = true)
    (run : session.journal moves = some (happenings, session')) : session'.phase.closing = true :=
  journal_induction (motive := fun _ later => later.phase.closing = true) [] closing
    (fun start change => change.closing start) run

theorem journal_blind (closing : session.phase.closing = true) (moves : List Move) :
    session.blind.journal (moves.filter (!·.queues)) =
      (session.journal moves).map (Prod.map id blind) := by
  -- A move that queues is left out on the left and unseen on the right; any other is made twice.
  induction moves generalizing session with
  | nil => rfl
  | cons move moves ih =>
    cases queues : move.queues with
    | true =>
      obtain ⟨next, stepped, unseen, same, kept⟩ := step_queues queues
      have later := ih (kept ▸ closing)
      rw [same] at later
      rw [journal_step stepped, unseen]
      simp [queues, later]
    | false =>
      have blindly := step_blind closing queues
      have kept : (move :: moves).filter (!·.queues) = move :: moves.filter (!·.queues) := by
        simp [queues]
      rw [kept]
      cases stepped : session.step move with
      | none =>
        rw [stepped] at blindly
        simp [journal, stepped, blindly]
      | some progress =>
        obtain ⟨effects, next⟩ := progress
        rw [stepped] at blindly
        rw [journal_step blindly, journal_step stepped, observe_blind closing stepped,
          ih (step_closing closing stepped)]
        simp [Function.comp_def]

theorem journal_of_queues {twin : Session} {moves moves' : List Move} {happenings : List Happening}
    (closing : session.phase.closing = true) (same : twin.blind = session.blind)
    (sameMoves : moves'.filter (!·.queues) = moves.filter (!·.queues))
    (run : session.journal moves = some (happenings, session')) :
    ∃ twin', twin.journal moves' = some (happenings, twin') ∧ twin'.blind = session'.blind := by
  have closingToo : twin.phase.closing = true := by
    rwa [← phase_blind, same, phase_blind]
  have blindly := journal_blind closing moves
  rw [← same, ← sameMoves, journal_blind closingToo, run] at blindly
  obtain ⟨⟨happenings', twin'⟩, ran, agree⟩ := Option.map_eq_some_iff.mp blindly
  obtain ⟨rfl, blind⟩ := Prod.mk.inj agree
  exact ⟨twin', ran, blind⟩

end TpmRelay.Session
