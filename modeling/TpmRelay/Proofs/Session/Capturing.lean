import TpmRelay.Proofs.Pieces
import TpmRelay.Proofs.Session.Parting
import TpmRelay.Proofs.Session.Unseen

set_option autoImplicit false

namespace TpmRelay

def Session.Effect.ofCapture : Effect → Bool
  | flush | note (.captureFailed _) | note (.captureFinished _) | note (.flushFailed _) => true
  | _ => false

namespace Recording

open Session

inductive Input where
  | chunk (chunk : Capture.Chunk)
  | close
  deriving DecidableEq, Repr

def receive : Recording → Input → List Effect × Recording
  | active recorder, .chunk chunk =>
    match recorder.write chunk with
    | (.ok (), recorder) => ([], active recorder)
    | (.error fault, recorder) => ([.note (.captureFailed fault)], abandoned recorder)
  | active recorder, .close =>
    let note := match recorder.finish with
      | .ok () => Note.captureFinished recorder.records
      | .error fault => .flushFailed fault
    ([.flush, .note note], finished recorder)
  | other, _ => ([], other)

def receiveAll : Recording → List Input → List Effect × Recording
  | recording, [] => ([], recording)
  | recording, input :: inputs =>
    let (effects, recording) := recording.receive input
    let (rest, recording) := recording.receiveAll inputs
    (effects ++ rest, recording)

variable {recording : Recording} {input : Input} {inputs : List Input}

theorem receive_idle (idle : recording.works = false) :
    recording.receive input = ([], recording) := by
  cases recording with
  | active => simp [works] at idle
  | absent | abandoned | finished => cases input <;> rfl

theorem receive_ofCapture (recording : Recording) (input : Input) :
    ∀ effect ∈ (recording.receive input).1, effect.ofCapture = true := by
  cases recording with
  | active recorder =>
    cases input with
    | chunk chunk =>
      simp only [receive]
      split <;> simp [Effect.ofCapture]
    | close =>
      simp only [receive]
      split <;> simp [Effect.ofCapture]
  | absent | abandoned | finished =>
    rw [receive_idle rfl]
    simp

theorem receive_quiet_or_idle (recording : Recording) (input : Input) :
    (recording.receive input).1 = [] ∨ (recording.receive input).2.works = false := by
  cases recording with
  | active recorder =>
    cases input with
    | chunk chunk =>
      simp only [receive]
      split
      next => exact .inl rfl
      next => exact .inr rfl
    | close => exact .inr rfl
  | absent | abandoned | finished => exact .inl (by rw [receive_idle rfl])

theorem receiveAll_idle (idle : recording.works = false) :
    recording.receiveAll inputs = ([], recording) := by
  induction inputs with
  | nil => rfl
  | cons input inputs ih => simp [receiveAll, receive_idle idle, ih]

theorem receiveAll_append (more : List Input) :
    recording.receiveAll (inputs ++ more) =
      ((recording.receiveAll inputs).1 ++ ((recording.receiveAll inputs).2.receiveAll more).1,
        ((recording.receiveAll inputs).2.receiveAll more).2) := by
  induction inputs generalizing recording with
  | nil => simp [receiveAll]
  | cons input inputs ih => simp [receiveAll, ih]

theorem quiet_of_works (works : (recording.receiveAll inputs).2.works = true) :
    (recording.receiveAll inputs).1 = [] := by
  induction inputs generalizing recording with
  | nil => rfl
  | cons input inputs ih =>
    simp only [receiveAll] at works ⊢
    rw [ih works, List.append_nil]
    rcases recording.receive_quiet_or_idle input with quiet | idle
    next => exact quiet
    next => simp [receiveAll_idle idle, idle] at works

theorem receiveAll_failure {midway jammed : Capture.Recorder} {chunk : Capture.Chunk}
    {fault : Fault} (active : (recording.receiveAll inputs).2 = .active midway)
    (fails : midway.write chunk = (.error fault, jammed)) (more : List Input) :
    recording.receiveAll (inputs ++ .chunk chunk :: more) =
      ([.note (.captureFailed fault)], .abandoned jammed) := by
  have quiet : (recording.receiveAll inputs).1 = [] := quiet_of_works (by rw [active]; rfl)
  have last : (Recording.active midway).receive (.chunk chunk) =
      ([.note (.captureFailed fault)], .abandoned jammed) := by simp only [receive, fails]
  have idle : (Recording.abandoned jammed).works = false := rfl
  rw [receiveAll_append, quiet, active, receiveAll, last]
  simp [receiveAll_idle idle]

end Recording

namespace Session

def withRecording (session : Session) (recording : Recording) : Session :=
  { session with recording }

def unrecorded (session : Session) : Session :=
  session.withRecording .absent

def bare (progress : Progress) : Progress :=
  (progress.1.filter (!·.ofCapture), progress.2.unrecorded)

def heard (session : Session) : Move → List Recording.Input
  | .take side time =>
    match (session.half side).inbox.take with
    | some (some (.chunk channel bytes), _) => [.chunk ⟨⟨side, channel⟩, time, bytes⟩]
    | _ => []
  | .released =>
    match session.phase with
    | .releasing .client _ => [.close]
    | _ => []
  | _ => []

def heardAll (session : Session) : List Move → List Recording.Input
  | [] => []
  | move :: moves =>
    match session.step move with
    | none => []
    | some (_, next) => session.heard move ++ next.heardAll moves

section Views

variable (session : Session) (recording : Recording) (side : Side)

@[simp] theorem recording_withRecording :
    (session.withRecording recording).recording = recording := rfl

theorem withRecording_self : session.withRecording session.recording = session := rfl

theorem withHalf_withRecording (f : Half → Half) :
    (session.withRecording recording).withHalf side f =
      (session.withHalf side f).withRecording recording := rfl

@[simp] theorem phase_unrecorded : session.unrecorded.phase = session.phase := rfl

@[simp] theorem half_unrecorded : session.unrecorded.half side = session.half side := rfl

@[simp] theorem unrecorded_unrecorded : session.unrecorded.unrecorded = session.unrecorded := rfl

theorem record_eq_receive (chunk : Capture.Chunk) :
    session.record chunk =
      Prod.map id session.withRecording (session.recording.receive (.chunk chunk)) := by
  cases recorded : session.recording with
  | active recorder =>
    simp only [record, recorded, Recording.receive]
    rcases recorder.write chunk with ⟨_ | _, _⟩ <;> rfl
  | absent | abandoned | finished =>
    rw [Recording.receive_idle rfl, ← recorded, Prod.map, withRecording_self]
    simp [record, recorded]

theorem finish_eq_receive (outcome : Outcome) :
    session.finish outcome =
      ((session.recording.receive .close).1 ++ [.note (.ended outcome)],
        { session.withRecording (session.recording.receive .close).2 with
          phase := .ended outcome }) := by
  cases recorded : session.recording with
  | active recorder =>
    simp only [finish, recorded, Recording.receive]
    cases recorder.finish <;> rfl
  | absent | abandoned | finished =>
    rw [Recording.receive_idle rfl, ← recorded, withRecording_self]
    simp [finish, recorded]

theorem unseen_withRecording : Unseen (·.withRecording recording) where
  stream _ _ := rfl
  call _ _ := rfl
  phase _ _ := rfl
  withHalf _ _ _ _ := rfl

theorem Dispatch.silent {side : Side} {effects : List Effect} {session next : Session}
    (dispatch : Dispatch session side (.ok (effects, next))) :
    ∀ effect ∈ effects, effect.ofCapture = false := by
  cases dispatch with
  | busy | incomplete => simp
  | packet => simp [Effect.ofCapture]

end Views

structure Apart (go : Session → Progress) : Prop where
  same (session : Session) (recording : Recording) :
    go (session.withRecording recording) =
      Prod.map id (·.withRecording recording) (go session)
  silent (session : Session) : ∀ effect ∈ (go session).1, effect.ofCapture = false

namespace Apart

theorem conclude (outcome : Outcome) : Apart (Session.conclude · outcome) where
  same _ _ := rfl
  silent _ := by simp [Effect.ofCapture]

theorem turn : Apart Session.turn where
  same session recording := (unseen_withRecording recording).turn session
  silent session := by
    unfold Session.turn
    have first := session.dispatch_spec .simulator
    cases dispatched : session.dispatch .simulator with
    | error failure => exact (conclude _).silent session
    | ok progress =>
      obtain ⟨effects, next⟩ := progress
      rw [dispatched] at first
      have second := next.dispatch_spec .client
      cases later : next.dispatch .client with
      | error failure =>
        simp only [later, List.mem_append]
        rintro effect (early | late)
        next => exact first.silent effect early
        next => exact (conclude _).silent next effect late
      | ok progress =>
        obtain ⟨effects', last⟩ := progress
        rw [later] at second
        simp only [later, List.mem_append]
        rintro effect (early | late)
        next => exact first.silent effect early
        next => exact second.silent effect late

theorem drain (closed : Side) (sides : List Side) : Apart (Session.drain · closed sides) where
  same session recording := (unseen_withRecording recording).drain session closed sides
  silent := by
    induction sides with
    | nil => exact (conclude _).silent
    | cons side later ih =>
      intro session
      simp only [Session.drain]
      have first := session.dispatch_spec side
      cases dispatched : session.dispatch side with
      | error failure => exact (conclude _).silent session
      | ok progress =>
        obtain ⟨effects, next⟩ := progress
        rw [dispatched] at first
        simp only
        split
        next => exact first.silent
        next =>
          have told : ∀ effect ∈ next.discarded side, effect.ofCapture = false := by
            unfold discarded
            split <;> simp [Effect.ofCapture]
          simp only [List.mem_append]
          rintro effect ((early | mid) | late)
          next => exact first.silent effect early
          next => exact told effect mid
          next => exact ih next effect late

theorem complete (side : Side) (result : Except Fault Unit) {go : Session → Progress}
    (apart : Apart go) : Apart (Session.complete · side result go) where
  same session recording :=
    (unseen_withRecording recording).complete session side result (apart.same · recording)
  silent session := by
    cases result with
    | error fault => exact (conclude _).silent _
    | ok => exact apart.silent _

theorem start (answers : Sides Opening) : Apart (Session.start · answers) := by
  have asked : ∀ effect ∈ (attempt (openingCalls answers)).1, effect.ofCapture = false := by
    intro effect member
    have called := attempt_effects _ effect member
    simp only [openingCalls, List.map_cons, List.map_nil, List.mem_cons, List.not_mem_nil,
      or_false] at called
    rcases called with rfl | rfl | rfl | rfl <;> rfl
  unfold Session.start
  generalize attempt (openingCalls answers) = attempted at asked
  obtain ⟨effects, result⟩ := attempted
  cases result with
  | error error =>
    refine ⟨fun _ _ => rfl, fun session effect member => ?_⟩
    rcases List.mem_append.mp member with early | late
    next => exact asked effect early
    next => exact (conclude _).silent session effect late
  | ok =>
    refine ⟨fun session recording => ?_, fun session effect member => ?_⟩
    next => simp [turn.same]
    next =>
      simp only [List.mem_append, List.mem_cons] at member
      rcases member with early | rfl | late
      next => exact asked effect early
      next => rfl
      next => exact turn.silent session effect late

end Apart

/-- A session comes to `whole`, and would come to `relayed` without its capture, which is told
`inputs` meanwhile. -/
structure Beside (recording : Recording) (inputs : List Recording.Input)
    (whole relayed : Progress) : Prop where
  relay : relayed = bare whole
  capture : recording.receiveAll inputs = (whole.1.filter (·.ofCapture), whole.2.recording)

variable {session : Session}

theorem Apart.beside {go : Session → Progress} (apart : Apart go) (session : Session) :
    Beside session.recording [] (go session) (go session.unrecorded) := by
  have silent := apart.silent session
  constructor
  next =>
    rw [unrecorded, apart.same, bare, List.filter_eq_self.mpr (by simpa using silent)]
    rfl
  next =>
    have kept : (go session).2.recording = session.recording := by
      rw [← withRecording_self session, apart.same]
      rfl
    rw [Recording.receiveAll, kept, List.filter_eq_nil_iff.mpr (by simpa using silent)]

theorem Apart.beside_if {go : Session → Progress} (apart : Apart go) (session : Session)
    (possible : Prop) [Decidable possible] :
    Option.Rel (Beside session.recording []) (if possible then some (go session) else none)
      (if possible then some (go session.unrecorded) else none) := by
  split
  next => exact .some (apart.beside session)
  next => exact .none

theorem beside_of_receive (recording : Recording) (input : Recording.Input)
    (before after : List Effect) (silent : ∀ effect ∈ before ++ after, effect.ofCapture = false)
    (next : Session) :
    Beside recording [input]
      (before ++ (recording.receive input).1 ++ after,
        next.withRecording (recording.receive input).2)
      (before ++ after, next.unrecorded) := by
  have own := recording.receive_ofCapture input
  have first : ∀ effect ∈ before, effect.ofCapture = false := fun effect member =>
    silent effect (List.mem_append_left _ member)
  have last : ∀ effect ∈ after, effect.ofCapture = false := fun effect member =>
    silent effect (List.mem_append_right _ member)
  constructor
  next =>
    have hidden : (recording.receive input).1.filter (!·.ofCapture) = [] :=
      List.filter_eq_nil_iff.mpr fun effect member => by simp [own effect member]
    rw [bare, List.filter_append, List.filter_append, hidden, List.append_nil,
      List.filter_eq_self.mpr (by simpa using first), List.filter_eq_self.mpr (by simpa using last)]
    rfl
  next =>
    rw [List.filter_append, List.filter_append, List.filter_eq_self.mpr own,
      List.filter_eq_nil_iff.mpr (by simpa using first),
      List.filter_eq_nil_iff.mpr (by simpa using last)]
    simp [Recording.receiveAll]

theorem receive_beside (session : Session) (side : Side) (time : Capture.Timestamp)
    (channel : Channel) (bytes : Bytes) :
    Beside session.recording [.chunk ⟨⟨side, channel⟩, time, bytes⟩]
      (session.receive side time channel bytes)
      (session.unrecorded.receive side time channel bytes) := by
  have beside (after : List Effect) (silent : ∀ effect ∈ after, effect.ofCapture = false) :=
    beside_of_receive session.recording (.chunk ⟨⟨side, channel⟩, time, bytes⟩)
      [.note (.read ⟨side, channel⟩ bytes)] after (by simpa [Effect.ofCapture] using silent)
  have absent : session.unrecorded.record ⟨⟨side, channel⟩, time, bytes⟩ =
      ([], session.unrecorded) := rfl
  rw [receive, receive, record_eq_receive, absent]
  cases channel with
  | control =>
    exact beside [.write side.opposite .control bytes] (by simp [Effect.ofCapture])
      { session with phase := .forwarding side bytes }
  | data =>
    let next := session.withHalf side fun half => { half with stream := half.stream.ingest bytes }
    have turned := beside next.turn.1 (Apart.turn.silent next) next.turn.2
    simpa [withHalf_withRecording, unrecorded, Apart.turn.same] using turned

theorem take_beside (session : Session) (side : Side) (time : Capture.Timestamp) :
    Option.Rel (Beside session.recording (session.heard (.take side time)))
      (session.take side time) (session.unrecorded.take side time) := by
  -- Only a chunk is told to the capture; the end of the queue is a close like any other.
  simp only [take, heard, half_unrecorded]
  cases (session.half side).inbox.take with
  | none => exact .none
  | some found =>
    obtain ⟨event, inbox⟩ := found
    cases event with
    | none => exact .some ⟨rfl, rfl⟩
    | some event =>
      cases event with
      | closed => exact .some ⟨rfl, rfl⟩
      | chunk channel bytes =>
        let next := session.withHalf side fun half => { half with inbox }
        exact .some (next.receive_beside side time channel bytes)

theorem finish_beside (session : Session) (outcome : Outcome) :
    Beside session.recording [.close] (session.finish outcome)
      (session.unrecorded.finish outcome) := by
  rw [finish_eq_receive, finish_eq_receive]
  exact beside_of_receive session.recording .close [] [.note (.ended outcome)]
    (by simp [Effect.ofCapture]) { session with phase := .ended outcome }

theorem step_beside (session : Session) (move : Move) :
    Option.Rel (Beside session.recording (session.heard move)) (session.step move)
      (session.unrecorded.step move) := by
  cases move with
  | arrive | hangUp | requestShutdown => exact .some ⟨rfl, rfl⟩
  | start answers =>
    cases phase : session.phase with
    | opening =>
      simp only [step, phase_unrecorded, phase]
      exact .some ((Apart.start answers).beside session)
    | _ => simp [step, phase]
  | take side time =>
    cases phase : session.phase with
    | relaying =>
      simp only [step, phase_unrecorded, phase]
      exact session.take_beside side time
    | _ => simp [step, phase]
  | forwarded result =>
    cases phase : session.phase with
    | forwarding source chunk =>
      cases result with
      | ok =>
        simp only [step, phase_unrecorded, phase]
        exact .some (Apart.turn.beside session)
      | error fault =>
        simp only [step, phase_unrecorded, phase]
        exact .some ((Apart.conclude _).beside session)
    | _ => cases result <;> simp [step, phase]
  | send caller target packet =>
    have sends : Apart fun session => ([.write target .data packet.serialize], session) :=
      ⟨fun _ _ => rfl, by simp [Effect.ofCapture]⟩
    exact sends.beside_if session _
  | returned side result =>
    cases phase : session.phase with
    | relaying =>
      simp only [step, phase_unrecorded, phase]
      exact (Apart.turn.complete side result).beside_if session _
    | draining closed current =>
      simp only [step, phase_unrecorded, phase]
      exact ((Apart.drain closed _).complete side result).beside_if session _
    | _ => simp [step, phase]
  | drain =>
    cases phase : session.phase with
    | draining closed current =>
      simp only [step, phase_unrecorded, phase]
      exact (Apart.drain closed _).beside_if session _
    | _ => simp [step, phase]
  | shutdown =>
    cases phase : session.phase with
    | relaying | draining =>
      simp only [step, phase_unrecorded, phase]
      exact (Apart.conclude _).beside_if session _
    | _ => simp [step, phase]
  | released =>
    cases phase : session.phase with
    | releasing current outcome =>
      cases current with
      | simulator =>
        simp only [step, heard, phase_unrecorded, phase]
        exact .some ⟨rfl, rfl⟩
      | client =>
        simp only [step, heard, phase_unrecorded, phase]
        exact .some (session.finish_beside outcome)
    | _ => simp [step, phase]

theorem run_beside (session : Session) (moves : List Move) :
    Option.Rel (Beside session.recording (session.heardAll moves)) (session.run moves)
      (session.unrecorded.run moves) := by
  -- After each step the session without a capture is where the other one is, but for the capture.
  induction moves generalizing session with
  | nil => exact .some ⟨rfl, rfl⟩
  | cons move moves ih =>
    have stepped := session.step_beside move
    simp only [run, heardAll]
    generalize session.step move = whole, session.unrecorded.step move = relayed at stepped
    cases stepped with
    | none => exact .none
    | @some whole relayed first =>
      obtain ⟨effects, next⟩ := whole
      obtain ⟨rfl, told⟩ := first
      have later := ih next
      simp only [bare, Option.bind_eq_bind, Option.bind_some]
      generalize next.run moves = whole, next.unrecorded.run moves = relayed at later
      cases later with
      | none => exact .none
      | @some whole relayed rest =>
        obtain ⟨effects', last⟩ := whole
        obtain ⟨rfl, told'⟩ := rest
        refine .some ⟨?_, ?_⟩
        next => simp [bare]
        next =>
          rw [Recording.receiveAll_append, told, told']
          simp

theorem eq_map_bare {recording : Recording} {inputs : List Recording.Input}
    {whole relayed : Option Progress} (beside : Option.Rel (Beside recording inputs) whole relayed) :
    relayed = whole.map bare := by
  cases beside with
  | none => rfl
  | some beside => rw [beside.relay, Option.map_some]

theorem heardAll_unrecorded (session : Session) (moves : List Move) :
    session.unrecorded.heardAll moves = session.heardAll moves := by
  induction moves generalizing session with
  | nil => rfl
  | cons move moves ih =>
    have same : session.unrecorded.heard move = session.heard move := by cases move <;> rfl
    rw [heardAll, heardAll, same, eq_map_bare (session.step_beside move)]
    cases session.step move with
    | none => rfl
    | some progress => simp [bare, ih]

/-- All that surrounds a session: its links, its handlers, and whoever talks to them. They see what
it does and what it waits for, but nothing of its capture. -/
structure Surroundings (State : Type) where
  choose : State → Session → Option Move
  react : State → Move → List Effect → State

namespace Surroundings

variable {State : Type}

/-- The session and its surroundings after so many moves, or when no move is left. -/
def play (surroundings : Surroundings State) : Nat → State × Session → State × Session
  | 0, place => place
  | more + 1, (state, session) =>
    match surroundings.choose state session.unrecorded with
    | none => (state, session)
    | some move =>
      match session.step move with
      | none => (state, session)
      | some (effects, session) =>
        surroundings.play more
          (surroundings.react state move (effects.filter (!·.ofCapture)), session)

theorem play_unrecorded (surroundings : Surroundings State) (count : Nat) (state : State)
    (session : Session) :
    surroundings.play count (state, session.unrecorded) =
      Prod.map id unrecorded (surroundings.play count (state, session)) := by
  induction count generalizing state session with
  | zero => rfl
  | succ count ih =>
    simp only [play, unrecorded_unrecorded]
    cases surroundings.choose state session.unrecorded with
    | none => rfl
    | some move =>
      simp only [eq_map_bare (session.step_beside move)]
      cases session.step move with
      | none => rfl
      | some progress => simp [bare, ih]

end Surroundings

theorem capture_never_disturbs (session : Session) :
    (∀ moves, session.unrecorded.run moves = (session.run moves).map bare) ∧
    -- Links and handlers that answer to what is done to them come to the same state.
    (∀ {State : Type} (surroundings : Surroundings State) (count : Nat) (state : State),
      surroundings.play count (state, session.unrecorded) =
        Prod.map id unrecorded (surroundings.play count (state, session))) ∧
    ∀ moves effects last, session.run moves = some (effects, last) →
      session.recording.receiveAll (session.heardAll moves) =
        (effects.filter (·.ofCapture), last.recording) ∧
      -- The first write that fails is the last, and nothing is flushed.
      ∀ before chunk after midway fault jammed,
        session.heardAll moves = before ++ .chunk chunk :: after →
        (session.recording.receiveAll before).2 = .active midway →
        midway.write chunk = (.error fault, jammed) →
          last.recording = .abandoned jammed ∧
            effects.filter (·.ofCapture) = [.note (.captureFailed fault)] := by
  refine ⟨?_, ?_, ?_⟩
  next => exact fun moves => eq_map_bare (session.run_beside moves)
  next => exact fun surroundings count state => surroundings.play_unrecorded count state session
  next =>
    intro moves effects last run
    have ran := session.run_beside moves
    rw [run] at ran
    generalize session.unrecorded.run moves = relayed at ran
    cases ran with
    | some beside =>
      have capture := beside.capture
      refine ⟨capture, ?_⟩
      intro before chunk after midway fault jammed told active fails
      rw [told, Recording.receiveAll_failure active fails] at capture
      obtain ⟨said, left⟩ := Prod.mk.inj capture
      exact ⟨left.symm, said.symm⟩

def crammed : Capture.Recorder :=
  (Capture.Recorder.create { limit := some 24 } {}).2

def pingChunk : Capture.Chunk :=
  ⟨⟨.simulator, .data⟩, .millis 0, ping.serialize⟩

theorem crammed_fails :
    ∃ jammed, crammed.write pingChunk = (.error Wire.Sink.full, jammed) := by
  have short : pingChunk.payload.drop UdpFlow.maxPayload = [] := rfl
  have whole : pingChunk.payload.take UdpFlow.maxPayload = pingChunk.payload := rfl
  have piece : chunksOf UdpFlow.maxPayload pingChunk.payload = [pingChunk.payload] := by
    rw [chunksOf_eq_cons (by decide) (by decide), short, whole, chunksOf_nil]
  rw [Capture.Recorder.write, piece]
  exact ⟨_, rfl⟩

theorem exchange_with_full_capture :
    ∃ effects last jammed, (fresh (.active crammed)).run exchange = some (effects, last) ∧
      last.recording = .abandoned jammed ∧
      effects.filter (·.ofCapture) = [.note (.captureFailed Wire.Sink.full)] := by
  have told : (fresh (.active crammed)).heardAll exchange =
      [] ++ .chunk pingChunk :: [.close] := by
    rw [← heardAll_unrecorded]
    rfl
  have relayed : ∃ progress, (fresh (.active crammed)).unrecorded.run exchange = some progress :=
    ⟨_, rfl⟩
  obtain ⟨progress, relayed⟩ := relayed
  rw [(capture_never_disturbs _).1] at relayed
  obtain ⟨⟨effects, last⟩, run, -⟩ := Option.map_eq_some_iff.mp relayed
  obtain ⟨jammed, fails⟩ := crammed_fails
  obtain ⟨abandoned, said⟩ :=
    ((capture_never_disturbs _).2.2 _ _ _ run).2 _ _ _ _ _ _ told rfl fails
  exact ⟨effects, last, jammed, run, abandoned, said⟩

end Session

end TpmRelay
