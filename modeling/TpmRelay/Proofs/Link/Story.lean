import TpmRelay.Proofs.Link.Course

set_option autoImplicit false

namespace TpmRelay.Link

-- What can be told of the steps so far.
structure Story where
  -- Some call had its turn.
  attempted : Bool := false
  asked : Bool := false
  bound : Channels (List Listener) := ⟨[], []⟩
  made : Channels (List Stream) := ⟨[], []⟩
  launches : List (HelperTask × Except Fault Unit) := []
  failures : List Error := []
  deriving DecidableEq

def Launching.error? : Launching → Option Error
  | unplaced fault => some (.transport fault)
  | refused fault => some (.helper fault)
  | started => none

-- The helper can only be launched with the second listener.
def Story.launching? (story : Story) (launching : Launching) : Option Error :=
  if story.bound = ⟨[], []⟩ then none else launching.error?

def Story.add (story : Story) : Happening → Story
  | .made (.connect _) | .made .turn => { story with attempted := true }
  | .made .close => { story with asked := true }
  | .made (.bound channel listener launching) => { story with
      bound := story.bound.modify channel (· ++ [listener])
      failures := story.failures ++ (story.launching? launching).toList }
  | .made (.connected channel stream) =>
    { story with made := story.made.modify channel (· ++ [stream]) }
  | .made (.unbound _ fault) | .made (.refused _ fault) =>
    { story with failures := story.failures ++ [.transport fault] }
  | .did (.launch task result) => { story with launches := story.launches ++ [(task, result)] }
  | _ => story

def story (past : List Happening) : Story :=
  past.foldl Story.add {}

/-- What an establishing call has to return: the first failure of a step, or that the link was
closed. -/
def Story.verdict (story : Story) : Except Error Unit :=
  match story.failures, story.asked with
  | error :: _, _ => .error error
  | [], true => .error .closed
  | [], false => .ok ()

def Move.attempts : Move → Bool
  | connect _ | turn => true
  | _ => false

def Move.asks : Move → Bool
  | close => true
  | _ => false

def Effect.launched : Effect → List (HelperTask × Except Fault Unit)
  | launch task result => [(task, result)]
  | _ => []

section Telling

variable {past : List Happening} {move : Move} {effects : List Effect}

theorem story_report (past : List Happening) (move : Move) (effects : List Effect) :
    story (past ++ report move effects) = { (story past).add (.made move) with
      launches := (story past).launches ++ effects.flatMap Effect.launched } := by
  have told (now : Story) : (effects.map Happening.did).foldl Story.add now =
      { now with launches := now.launches ++ effects.flatMap Effect.launched } := by
    induction effects generalizing now with
    | nil => simp
    | cons effect effects ih =>
      rw [List.map_cons, List.foldl_cons, ih, List.flatMap_cons]
      cases effect <;> simp [Story.add, Effect.launched]
  have kept : ((story past).add (.made move)).launches = (story past).launches := by
    cases move <;> rfl
  rw [story, List.foldl_append, report, List.foldl_cons, told, ← story, kept]

theorem story_of_quiet (past : List Happening) (move : Move)
    (quiet : effects.flatMap Effect.launched = []) :
    story (past ++ report move effects) = (story past).add (.made move) := by
  have kept : ((story past).add (.made move)).launches = (story past).launches := by
    cases move <;> rfl
  rw [story_report, quiet, List.append_nil, ← kept]

theorem attempted_report (past : List Happening) (move : Move) (effects : List Effect) :
    (story (past ++ report move effects)).attempted =
      ((story past).attempted || move.attempts) := by
  rw [story_report]
  cases move <;> simp [Story.add, Move.attempts]

theorem asked_report (past : List Happening) (move : Move) (effects : List Effect) :
    (story (past ++ report move effects)).asked = ((story past).asked || move.asks) := by
  rw [story_report]
  cases move <;> simp [Story.add, Move.asks]

end Telling

structure Placed (past : List Happening) (link : Link) : Prop where
  asked : (story past).asked = link.closing
  idle : link.state = .idle → (story past).attempted = false
  begun : link.state ≠ .idle → (story past).attempted = true ∨ link.closing = true
  busy : link.establishing ≠ .absent →
    (story past).attempted = true ∧ (link.state = .closed → link.closing = true)

section Placing

variable {past : List Happening} {link link' : Link} {move : Move} {effects : List Effect}

theorem placed_fresh (role : Role) : Placed [] (fresh role) where
  asked := rfl
  idle _ := rfl
  begun busy := absurd rfl busy
  busy busy := absurd rfl busy

theorem Change.closing_eq (change : Change link move effects link') :
    link'.closing = (link.closing || move.asks) := by
  cases change with
  | closesAgain closing => simp [closing]
  | closesDialing | closesWaiting => simp [released, Move.asks]
  | waits waits => cases move <;> simp_all [Move.waits, Move.asks]
  | abandons settles | settles _ settles => cases move <;> simp_all [Move.settles, Move.asks]
  | passesControl passes | terminates passes | returns passes =>
    cases passes <;> simp [told, Move.asks]
  | _ => simp [told, released, Move.asks]

theorem State.markMade_eq_idle {state : State} {channel : Channel} :
    state.markMade channel = .idle ↔ state = .idle := by
  cases state <;> simp [State.markMade]

theorem State.fail_eq_idle {state : State} : state.fail = .idle ↔ state = .idle := by
  cases state <;> simp [State.fail]

theorem State.markMade_eq_closed {state : State} {channel : Channel} :
    state.markMade channel = .closed ↔ state = .closed := by
  cases state <;> simp [State.markMade]

theorem State.fail_eq_closed {state : State} : state.fail = .closed ↔ state = .closed := by
  cases state <;> simp [State.fail]

theorem Change.keeps_idle (sound : link.Sound) (change : Change link move effects link')
    (other : move.attempts = false) :
    (link'.state = .idle → link.state = .idle) ∧
      (link.state = .idle → link'.state ≠ .idle → link'.closing = true) := by
  have same (same : link'.state = .idle ↔ link.state = .idle) :
      (link'.state = .idle → link.state = .idle) ∧
        (link.state = .idle → link'.state ≠ .idle → link'.closing = true) :=
    ⟨same.mp, fun idle busy => absurd (same.mpr idle) busy⟩
  cases change with
  | connects | turns | late | lateTurn => cases other
  | connectsOne | connectsBoth => exact same State.markMade_eq_idle
  | abandons => exact same State.fail_eq_idle
  | settles _ _ _ _ failed =>
    rcases failed with rfl | rfl
    next => exact same State.fail_eq_idle
    next => exact same .rfl
  | storesData storing ready =>
    have busy := (sound.busy (by simp [storing])).1
    rcases ready with rfl | ⟨-, rfl⟩ <;> simp [busy]
  | lastReadEnds running => simp [(sound.running running).2.2]
  | closesDialing | closesWaiting => simp [released]
  | _ => exact same .rfl

theorem Change.keeps_busy (sound : link.Sound) (change : Change link move effects link')
    (other : move.attempts = false) (busy : link'.establishing ≠ .absent) :
    link.establishing ≠ .absent ∧
      (link'.state = .closed → link.state ≠ .closed → link'.closing = true) := by
  have same {stage : Establishing} (now : link.establishing = stage) (busy : stage ≠ .absent)
      (same : link'.state = .closed ↔ link.state = .closed) : link.establishing ≠ .absent ∧
        (link'.state = .closed → link.state ≠ .closed → link'.closing = true) :=
    ⟨now ▸ busy, fun closed open' => absurd (same.mp closed) open'⟩
  cases change with
  | connects | turns | late | lateTurn => cases other
  | connectsOne making | connectsBoth making => exact same making nofun State.markMade_eq_closed
  | abandons _ _ making => exact same making nofun State.fail_eq_closed
  | settles | storesData => exact absurd rfl busy
  | binds stage | launches stage | abandonsOne stage | storesControl stage =>
    exact same stage nofun .rfl
  | lastReadEnds running => exact absurd (sound.running running).1 busy
  | closesDialing | closesWaiting => exact ⟨busy, fun _ _ => rfl⟩
  | _ => exact same rfl busy .rfl

theorem Placed.change (placed : Placed past link) (sound : link.Sound)
    (change : Change link move effects link') (other : move.attempts = false) :
    Placed (past ++ report move effects) link' := by
  obtain ⟨asked, idle, begun, busy⟩ := placed
  have attempted := attempted_report past move effects
  rw [other, Bool.or_false] at attempted
  have closing := change.closing_eq
  obtain ⟨before, after⟩ := change.keeps_idle sound other
  refine ⟨by rw [asked_report, asked, closing], ?_, fun begun' => ?_, fun busy' => ?_⟩
  next =>
    rw [attempted]
    exact fun idle' => idle (before idle')
  next =>
    rw [attempted]
    by_cases start : link.state = .idle
    next => exact .inr (after start begun')
    next => exact (begun start).imp_right fun asked => by simp [closing, asked]
  next =>
    obtain ⟨busy₀, closed⟩ := change.keeps_busy sound other busy'
    obtain ⟨tried, heeds⟩ := busy busy₀
    refine ⟨attempted.trans tried, fun closed' => ?_⟩
    by_cases before : link.state = .closed
    next => simp [closing, heeds before]
    next => exact closed closed' before

end Placing

end TpmRelay.Link
