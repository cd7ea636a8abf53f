import TpmRelay.Session.Step

set_option autoImplicit false

namespace TpmRelay.Session

inductive Happening where
  | took (side : Side) (event : Option Link.Event)
  | forwarded (result : Except Fault Unit)
  | sent (caller target : Side) (packet : Packet)
  | returned (side : Side) (result : Except Fault Unit)
  | shutdown
  | did (effect : Effect)
  deriving Repr

-- What a move takes in. Events that join a queue are seen when they are taken.
def observe (session : Session) : Move → List Happening
  | .take side _ =>
    match (session.half side).inbox.take with
    | some (event, _) => [.took side event]
    | none => []
  | .forwarded result => [.forwarded result]
  | .send caller target packet => [.sent caller target packet]
  | .returned side result => [.returned side result]
  | .shutdown => [.shutdown]
  | .arrive .. | .hangUp _ | .requestShutdown | .start _ | .drain | .released => []

@[simp] def Effect.deed : Effect → List Happening
  | note _ => []
  | effect => [.did effect]

def deeds (effects : List Effect) : List Happening :=
  effects.flatMap Effect.deed

def journal (session : Session) : List Move → Option (List Happening × Session)
  | [] => some ([], session)
  | move :: moves => do
    let (effects, next) ← session.step move
    let (later, last) ← next.journal moves
    return (session.observe move ++ deeds effects ++ later, last)

def Happening.isDeed : Happening → Bool
  | did _ => true
  | _ => false

@[simp] theorem deeds_nil : deeds [] = [] := rfl

@[simp] theorem deeds_cons (effect : Effect) (effects : List Effect) :
    deeds (effect :: effects) = effect.deed ++ deeds effects := rfl

@[simp] theorem deeds_append (first second : List Effect) :
    deeds (first ++ second) = deeds first ++ deeds second :=
  List.flatMap_append

@[simp] theorem filter_isDeed_deeds (effects : List Effect) :
    (deeds effects).filter Happening.isDeed = deeds effects := by
  induction effects with
  | nil => rfl
  | cons effect effects ih =>
    rw [deeds_cons, List.filter_append, ih]
    cases effect <;> rfl

@[simp] theorem filter_isDeed_observe (session : Session) (move : Move) :
    (session.observe move).filter Happening.isDeed = [] := by
  cases move with
  | take side time =>
    simp only [observe]
    split <;> simp [Happening.isDeed]
  | _ => simp [observe, Happening.isDeed]

theorem run_eq_journal (session : Session) (moves : List Move) :
    (session.run moves).map (fun (effects, last) => (deeds effects, last)) =
      (session.journal moves).map fun (happenings, last) =>
        (happenings.filter Happening.isDeed, last) := by
  induction moves generalizing session with
  | nil => rfl
  | cons move moves ih =>
    cases stepped : session.step move with
    | none => simp [run, journal, stepped]
    | some progress =>
      obtain ⟨effects, next⟩ := progress
      have later := ih next
      cases ran : next.run moves <;> cases journaled : next.journal moves <;>
        simp_all [run, journal]

theorem journal_step {session next : Session} {move : Move} {effects : List Effect}
    (stepped : session.step move = some (effects, next)) (moves : List Move) :
    session.journal (move :: moves) = (next.journal moves).map fun (later, last) =>
      (session.observe move ++ deeds effects ++ later, last) := by
  cases rest : next.journal moves <;> simp [journal, stepped, rest]

theorem journal_cons {session last : Session} {move : Move} {moves : List Move}
    {happenings : List Happening}
    (run : session.journal (move :: moves) = some (happenings, last)) :
    ∃ effects next later, session.step move = some (effects, next) ∧
      next.journal moves = some (later, last) ∧
      happenings = session.observe move ++ deeds effects ++ later := by
  cases stepped : session.step move with
  | none => simp [journal, stepped] at run
  | some progress =>
    obtain ⟨effects, next⟩ := progress
    rw [journal_step stepped] at run
    obtain ⟨⟨later, final⟩, rest, same⟩ := Option.map_eq_some_iff.mp run
    obtain ⟨rfl, rfl⟩ := Prod.mk.inj same
    exact ⟨effects, next, later, rfl, rest, rfl⟩

-- A session before its first move. Whatever its queues hold later has to arrive first.
def fresh (recording : Recording) : Session :=
  { recording }

def ping : Packet :=
  .new 0x8001 0x144 [0, 1]

def exchange : List Move :=
  [.start ⟨{}, {}⟩, .arrive .simulator (.chunk .data ping.serialize),
    .take .simulator (.millis 0), .send .simulator .client ping, .returned .simulator (.ok ()),
    .arrive .simulator .closed, .take .simulator (.millis 1), .drain, .released, .released]

end TpmRelay.Session
