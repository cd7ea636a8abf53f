import TpmRelay.Proofs.Link.Aside
import TpmRelay.Proofs.Link.Closing
import TpmRelay.Proofs.Link.Outcome

set_option autoImplicit false

namespace TpmRelay.Link

def attempt? (link : Link) : Move → Option Nat
  | .connect call => some call
  | .turn =>
    match link.gate with
    | .listen call _ :: _ => some call
    | _ => none
  | _ => none

def State.refusal : State → Error
  | closed => .closed
  | other => .alreadyStarted other

inductive Attempts (link : Link) (call : Nat) : List Effect → Link → Prop where
  | connects (role : link.role = .dialing) (idle : link.state = .idle) :
      Attempts link call [] { link with
        state := .establishing ⟨false, false⟩, establishing := .making call none ⟨none, none⟩ }
  | turns {frontend : String} (queued : .listen call frontend ∈ link.gate)
      (idle : link.state = .idle) :
      Attempts link call [] { link with
        state := .establishing ⟨false, false⟩
        establishing := .binding call frontend ⟨none, none⟩ }
  | refused {next : Link} (begun : link.state ≠ .idle) (state : next.state = link.state)
      (same : next.establishing = link.establishing) :
      Attempts link call [.established call (.error link.state.refusal)] next

section Attempts

variable {link next : Link} {move : Move} {effects : List Effect} {call : Nat}

theorem beginEstablishing_refused (begun : link.state ≠ .idle) :
    link.beginEstablishing = .error link.state.refusal := by
  unfold beginEstablishing
  cases state : link.state <;> simp_all [State.refusal]

theorem attempt?_eq_none (other : move.attempts = false) : link.attempt? move = none := by
  cases move <;> first | rfl | cases other

theorem exists_attempt (stepped : link.step move = some (effects, next))
    (attempts : move.attempts = true) : ∃ call, link.attempt? move = some call := by
  cases move with
  | connect call => exact ⟨call, rfl⟩
  | turn =>
    simp only [step, stepEstablishing] at stepped
    split at stepped
    next queue _ => exact ⟨_, by rw [attempt?, queue]⟩
    next => cases stepped
  | _ => cases attempts

theorem attempts_of_step (stepped : link.step move = some (effects, next))
    (own : link.attempt? move = some call) : Attempts link call effects next := by
  cases move with
  | connect other =>
    obtain rfl : other = call := Option.some.inj own
    obtain ⟨role, connected⟩ := Option.ite_none_right_eq_some.mp stepped
    rcases link.beginEstablishing_cases with ⟨idle, begun⟩ | ⟨error, late⟩
    next =>
      simp only [connect, begun] at connected
      obtain ⟨rfl, rfl⟩ := Prod.mk.inj (Option.some.inj connected)
      exact .connects role idle
    next =>
      have begun : link.state ≠ .idle := fun idle => by simp [beginEstablishing, idle] at late
      simp only [connect, beginEstablishing_refused begun] at connected
      obtain ⟨rfl, rfl⟩ := Prod.mk.inj (Option.some.inj connected)
      exact .refused begun rfl rfl
  | turn =>
    simp only [step, stepEstablishing] at stepped
    split at stepped
    next other frontend rest queue absent =>
      obtain rfl : other = call := by simpa [attempt?, queue] using own
      rcases link.beginEstablishing_cases with ⟨idle, begun⟩ | ⟨error, late⟩
      next =>
        simp only [turn, begun] at stepped
        obtain ⟨rfl, rfl⟩ := Prod.mk.inj (Option.some.inj stepped)
        exact .turns (by simp [queue]) idle
      next =>
        have begun : link.state ≠ .idle := fun idle => by simp [beginEstablishing, idle] at late
        simp only [turn, beginEstablishing_refused begun, settleCall, leaveGate_eq] at stepped
        obtain ⟨rfl, rfl⟩ := Prod.mk.inj (Option.some.inj stepped)
        exact .refused begun rfl absent.symm
    next => cases stepped
  | _ => cases own

theorem Attempts.of_idle (attempt : Attempts link call effects next) (idle : link.state = .idle) :
    effects = [] ∧ next.establishing.owner? = some call := by
  cases attempt with
  | connects | turns => exact ⟨rfl, rfl⟩
  | refused begun => exact absurd idle begun

theorem Attempts.of_begun (attempt : Attempts link call effects next)
    (begun : link.state ≠ .idle) :
    effects = [.established call (.error link.state.refusal)] ∧ next.state = link.state ∧
      next.establishing = link.establishing := by
  cases attempt with
  | connects _ idle | turns _ idle => exact absurd idle begun
  | refused _ state same => exact ⟨rfl, state, same⟩

end Attempts

theorem Story.verdict_ask {story : Story} {error : Error} (verdict : story.verdict = .error error)
    (asks : Bool) :
    ({ story with asked := story.asked || asks } : Story).verdict = .error error := by
  obtain ⟨attempted, asked, bound, made, launches, failures⟩ := story
  cases failures with
  | cons => exact verdict
  | nil =>
    cases asked with
    | true => exact verdict
    | false => cases verdict

structure Tried (role : Role) (past : List Happening) (link : Link) : Prop where
  regular : Regular role past link
  course : Course past link
  placed : Placed past link
  told : Told role past link.establishing
  limited : Limited past
  listens : ∀ call frontend, .listen call frontend ∈ link.gate →
    .made (.listen call frontend) ∈ past

section Tried

variable {role : Role} {past seen : List Happening} {link next : Link} {move : Move}
  {effects : List Effect} {call : Nat} {stage : Establishing}

theorem quiet_of_unconcerned (unconcerned : ∀ effect ∈ effects, effect.concerns = false) :
    effects.flatMap Effect.launched = [] := by
  refine List.flatMap_eq_nil_iff.mpr fun effect member => ?_
  have unconcerned := unconcerned effect member
  cases effect <;> simp_all [Effect.concerns, Effect.launched]

theorem Told.later {asks : Bool} {more : List Happening} (told : Told role past stage)
    (now : story (past ++ more) = { story past with asked := (story past).asked || asks }) :
    Told role (past ++ more) stage := by
  have kept : past ⊆ past ++ more := List.subset_append_left _ _
  cases stage with
  | absent =>
    intro untried
    rw [now] at untried
    obtain ⟨asked, tells⟩ := told untried
    exact ⟨asked || asks, by rw [now, tells]⟩
  | binding =>
    obtain ⟨⟨asked, tells⟩, missing, listens⟩ := told
    exact ⟨⟨asked || asks, by rw [now, tells]⟩, missing, kept listens⟩
  | making call listeners made =>
    cases listeners with
    | none =>
      obtain ⟨dials, ⟨asked, tells⟩, missing⟩ := told
      exact ⟨dials, ⟨asked || asks, by rw [now, tells]⟩, missing⟩
    | some listeners =>
      obtain ⟨⟨asked, task, tells⟩, missing⟩ := told
      exact ⟨⟨asked || asks, task, by rw [now, tells]⟩, missing⟩
  | storing =>
    rw [Told, now]
    exact told
  | abandoning call error left =>
    obtain ⟨verdict, unmade, unlistened, dropped⟩ := told
    rw [Told, Unlistened, now]
    refine ⟨Story.verdict_ask verdict asks, unmade, fun channel listener member => ?_,
      fun channel stream member => ?_⟩
    next => exact kept (unlistened channel listener member)
    next => exact (dropped channel stream member).imp_right (·.append more)

theorem aside_sequel (asks : Bool) (told : Told role past link.establishing)
    (limited : Limited past)
    (adds : (story past).add (.made move) = { story past with asked := (story past).asked || asks })
    (unconcerned : ∀ effect ∈ effects, effect.concerns = false)
    (same : next.establishing = link.establishing) :
    Sequel role link.establishing.owner? (past ++ report move effects) effects next := by
  have quiet := quiet_of_unconcerned unconcerned
  have now := story_of_quiet past move quiet
  rw [adds] at now
  refine ⟨same ▸ told.later now, limited.still adds quiet,
    fun call result member => ?_, fun call owner => .inl (same ▸ owner)⟩
  cases unconcerned _ member

theorem Tried.role_eq (tried : Tried role past link) : link.role = role := by
  have plays := tried.regular.plays
  cases role with
  | dialing => exact plays.role
  | waiting => exact plays.role

theorem Tried.untried (tried : Tried role past link) (untried : (story past).attempted = false) :
    link.establishing = .absent ∧ story past = { asked := link.closing } ∧
      link.state = if link.closing then .closed else .idle := by
  have absent : link.establishing = .absent := Classical.byContradiction fun busy => by
    simp [(tried.placed.busy busy).1] at untried
  have told := tried.told
  rw [absent] at told
  obtain ⟨asked, tells⟩ := told untried
  have closing := tried.placed.asked
  rw [tells] at closing
  refine ⟨absent, closing ▸ tells, ?_⟩
  cases closing : link.closing with
  | true => exact (by simpa [Answers, closing] using tried.course.answers : _ ∧ _).2
  | false =>
    refine Classical.byContradiction fun begun => ?_
    rcases tried.placed.begun begun with attempted | asked
    next => simp [attempted] at untried
    next => simp [closing] at asked

theorem Tried.standing {state : State} (tried : Tried role past link)
    (now : link.establishing = stage) (busy : stage ≠ .absent)
    (staged : link.Staged past stage → link.state = state) :
    (story past).attempted = true ∧ link.state = if (story past).asked then .closed else state := by
  obtain ⟨attempted, closed⟩ := tried.placed.busy (now ▸ busy)
  refine ⟨attempted, ?_⟩
  rw [tried.placed.asked]
  cases closing : link.closing with
  | true => exact (by simpa [Answers, closing] using tried.course.answers : _ ∧ _).2
  | false =>
    refine staged (now ▸ tried.course.staged fun shut => ?_)
    simp [closed shut] at closing

theorem fail_of_standing {made : Channels Bool}
    (standing : link.state = if (story past).asked then .closed else .establishing made) :
    link.state.fail = if (story past).asked then .closed else .failed := by
  rw [standing]
  cases (story past).asked <;> rfl

theorem Attempts.sequel (tried : Tried role past link) (attempts : Attempts link call effects next)
    (untried : (story past).attempted = false)
    (adds : (story past).add (.made move) = { story past with attempted := true }) :
    Sequel role (some call) (past ++ report move effects) effects next := by
  obtain ⟨absent, tells, state⟩ := tried.untried untried
  have unasked (idle : link.state = .idle) : link.closing = false := by
    rw [idle] at state
    cases closing : link.closing <;> simp_all
  have now {effects : List Effect} (quiet : effects.flatMap Effect.launched = []) :
      story (past ++ report move effects) = { attempted := true, asked := link.closing } := by
    rw [story_of_quiet _ _ quiet, adds, tells]
  have limited {effects : List Effect} (quiet : effects.flatMap Effect.launched = []) :
      Limited (past ++ report move effects) := by
    refine tried.limited.keep ?_ ?_ ?_ subset_report
    all_goals rw [now quiet, tells]
  cases attempts with
  | connects dials idle =>
    exact ⟨⟨tried.role_eq ▸ dials, ⟨_, now rfl⟩, .control, rfl⟩, limited rfl, by simp,
      fun _ => .inl⟩
  | turns queued idle =>
    exact ⟨⟨⟨_, now rfl⟩, ⟨.control, rfl⟩, subset_report (tried.listens _ _ queued)⟩, limited rfl,
      by simp, fun _ => .inl⟩
  | refused begun same stage =>
    -- No call was before this one, so it was a close that came first.
    have closing : link.closing = true := by
      cases closing : link.closing <;> simp_all
    have closed : link.state = .closed := by simp [state, closing]
    have now : story (past ++ report move [.established call (.error link.state.refusal)]) =
        { attempted := true, asked := link.closing } := now rfl
    rw [closing] at now
    refine ⟨?_, limited rfl, fun other result member => ?_, fun other same => .inr ?_⟩
    next =>
      rw [stage, absent]
      intro untried
      simp [now] at untried
    next =>
      obtain ⟨rfl, rfl⟩ : other = call ∧ result = .error .closed := by
        simpa [closed, State.refusal] using member
      refine ⟨rfl, ?_, ?_, ?_, stage.trans absent, nofun, fun _ unasked => ?_⟩
      next => rw [now]; rfl
      next => simp [now]
      next => rw [now]; exact same.trans closed
      next => simp [now] at unasked
    next => exact ⟨.error link.state.refusal, by simp [Option.some.inj same]⟩

theorem Sequel.of_made {progress : Progress} {call? : Option Nat}
    (made : some progress = some (effects, next))
    (sequel : Sequel role call? (past ++ report move progress.1) progress.1 progress.2) :
    Sequel role call? (past ++ report move effects) effects next := by
  obtain rfl := Option.some.inj made
  exact sequel

theorem Tried.works (tried : Tried role past link)
    (stepped : link.stepEstablishing move = some (effects, next))
    (working : move.attempts = false) (wanted : ∀ call, move ≠ .cancel call) :
    Sequel role link.establishing.owner? (past ++ report move effects) effects next := by
  have told {stage : Establishing} (now : link.establishing = stage) : Told role past stage :=
    now ▸ tried.told
  have limited := tried.limited
  unfold stepEstablishing at stepped
  split at stepped
  next => cases working
  next =>
    obtain ⟨-, ⟨⟩⟩ := Option.ite_none_right_eq_some.mp stepped
    exact aside_sequel false tried.told limited (by simp [Story.add]) (by simp) rfl
  next => cases working
  next channel listener launching =>
    split at stepped
    next binding =>
      obtain ⟨missing, bound⟩ := Option.ite_none_right_eq_some.mp stepped
      obtain ⟨-, standing⟩ := tried.standing binding (by simp) id
      have sequel := bind_sequel listener launching (told binding) limited
        (fail_of_standing standing) (Option.isNone_iff_eq_none.mp missing)
      rw [binding]
      exact .of_made bound sequel
    next => cases stepped
  next channel fault =>
    split at stepped
    next binding =>
      obtain ⟨-, unbound⟩ := Option.ite_none_right_eq_some.mp stepped
      obtain ⟨-, standing⟩ := tried.standing binding (by simp) id
      rw [binding]
      exact .of_made unbound (unbind_sequel (told binding) limited fault
        (fail_of_standing standing))
    next => cases stepped
  next channel stream =>
    split at stepped
    next making =>
      obtain ⟨⟨missing, -⟩, connected⟩ := Option.ite_none_right_eq_some.mp stepped
      rw [making]
      exact .of_made connected (connected_sequel stream (told making) limited
        (Option.isNone_iff_eq_none.mp missing))
    next => cases stepped
  next channel fault =>
    split at stepped
    next making =>
      obtain ⟨-, refused⟩ := Option.ite_none_right_eq_some.mp stepped
      obtain ⟨-, standing⟩ := tried.standing making (by simp) (·.1)
      obtain ⟨-, -, unfailed, -⟩ := (told making).making
      rw [making]
      refine .of_made refused (giveUp_sequel (told making) limited rfl ?_
        (fail_of_standing standing))
      rw [Story.verdict, unfailed]
      rfl
    next => cases stepped
  next =>
    split at stepped
    next making =>
      obtain ⟨closing, noticed⟩ := Option.ite_none_right_eq_some.mp stepped
      obtain ⟨-, standing⟩ := tried.standing making (by simp) (·.1)
      obtain ⟨-, -, unfailed, -⟩ := (told making).making
      have adds : (story past).add (.made .notice) = { story past with failures := [] } := by
        rw [← unfailed]
        rfl
      rw [making]
      refine .of_made noticed (giveUp_sequel (told making) limited adds ?_
        (fail_of_standing standing))
      rw [Story.verdict, tried.placed.asked, closing]
    next => cases stepped
  next =>
    split at stepped
    next =>
      obtain ⟨-, ⟨⟩⟩ := Option.ite_none_left_eq_some.mp stepped
      exact aside_sequel false tried.told limited (by simp [Story.add]) (by simp) rfl
    next => cases stepped
  next =>
    split at stepped
    next storing =>
      obtain ⟨-, stored⟩ := Option.ite_none_right_eq_some.mp stepped
      obtain ⟨attempted, standing⟩ := tried.standing storing (by simp) (·.1)
      have writes (unasked : (story past).asked = false) :=
        (storing ▸ tried.course.staged (by simp [standing, unasked])).2.2
      rw [storing]
      exact .of_made stored (store_sequel (told storing) limited attempted standing writes)
    next => cases stepped
  next result =>
    split at stepped
    next abandoning =>
      obtain ⟨attempted, standing⟩ := tried.standing abandoning (by simp) id
      rw [abandoning]
      exact .of_made stepped (abandon_sequel result (told abandoning) limited attempted standing)
    next => cases stepped
  next call => exact absurd rfl (wanted call)
  next => cases stepped

theorem Tried.cancel (tried : Tried role past link)
    (cancelled : link.cancel call = some (effects, next)) :
    Told role (past ++ report (.cancel call) effects) next.establishing ∧
      Limited (past ++ report (.cancel call) effects) ∧
      (∀ other result, .established other result ∉ effects) ∧
      (link.establishing.owner? ≠ some call → next.establishing = link.establishing) := by
  obtain ⟨unconcerned, gone, -⟩ := cancel_cases cancelled
  have quiet := quiet_of_unconcerned unconcerned
  refine ⟨?_, tried.limited.still rfl quiet, fun other result member => ?_, fun other => ?_⟩
  next =>
    rcases gone with ⟨owner, absent⟩ | ⟨-, same⟩
    next =>
      have busy := Establishing.ne_absent_of_owner owner
      rw [absent]
      intro untried
      simp [attempted_report, (tried.placed.busy busy).1] at untried
    next =>
      exact (aside_sequel false tried.told tried.limited (by simp [Story.add]) unconcerned
        same).told
  next => cases unconcerned _ member
  next => exact (gone.resolve_left fun own => other own.1).2

theorem add_attempt (now : Story) (attempts : move.attempts = true) :
    now.add (.made move) = { now with attempted := true } := by
  cases move <;> first | rfl | cases attempts

theorem Tried.sequel (tried : Tried role past link)
    (stepped : link.step move = some (effects, next))
    (prompt : move.attempts = true → (story past).attempted = false)
    (wanted : ∀ call, move ≠ .cancel call) :
    Sequel role ((link.attempt? move).or link.establishing.owner?) (past ++ report move effects)
      effects next := by
  cases attempts : move.attempts with
  | true =>
    obtain ⟨call, own⟩ := exists_attempt stepped attempts
    rw [own]
    exact (attempts_of_step stepped own).sequel tried (prompt attempts) (add_attempt _ attempts)
  | false =>
    rw [attempt?_eq_none attempts]
    rcases step_aside stepped with establishing | ⟨aside, -, adds⟩
    next => exact tried.works establishing attempts wanted
    next =>
      exact aside_sequel _ tried.told tried.limited (adds _) aside.unconcerned aside.establishing

theorem Tried.idle_iff (tried : Tried role past link) :
    link.state = .idle ↔ (story past).attempted = false ∧ (story past).asked = false := by
  constructor
  next =>
    intro idle
    refine ⟨tried.placed.idle idle, ?_⟩
    rw [tried.placed.asked]
    cases closing : link.closing with
    | false => rfl
    | true =>
      have answers := tried.course.answers
      simp [Answers, closing, idle] at answers
  next =>
    rintro ⟨untried, unasked⟩
    obtain ⟨-, -, state⟩ := tried.untried untried
    rw [tried.placed.asked] at unasked
    simpa [unasked] using state

theorem Tried.late (tried : Tried role past link) (attempt : Attempts link call effects next)
    (attempts : move.attempts = true) (attempted : (story past).attempted = true) :
    Told role (past ++ report move effects) next.establishing ∧
      Limited (past ++ report move effects) := by
  have begun : link.state ≠ .idle := fun idle => by
    simp [tried.placed.idle idle] at attempted
  obtain ⟨rfl, -, same⟩ := attempt.of_begun begun
  have adds : (story past).add (.made move) =
      { story past with asked := (story past).asked || false } := by
    rw [add_attempt _ attempts, Bool.or_false, ← attempted]
  have now : story (past ++ report move [.established call (.error link.state.refusal)]) =
      (story past).add (.made move) := story_of_quiet past move rfl
  rw [adds] at now
  exact ⟨same ▸ tried.told.later now, tried.limited.still adds rfl⟩

theorem Placed.attempt (placed : Placed past link) (change : Change link move effects next)
    (attempt : Attempts link call effects next) (attempts : move.attempts = true) :
    Placed (past ++ report move effects) next := by
  have attempted : (story (past ++ report move effects)).attempted = true := by
    rw [attempted_report, attempts, Bool.or_true]
  have closing := change.closing_eq
  refine ⟨by rw [asked_report, placed.asked, closing], fun idle => ?_, fun _ => .inl attempted,
    fun busy => ⟨attempted, fun closed => ?_⟩⟩
  next =>
    cases attempt with
    | connects | turns => cases idle
    | refused begun state => exact absurd (state.symm.trans idle) begun
  next =>
    cases attempt with
    | connects | turns => cases closed
    | refused _ state same =>
      have asked := (placed.busy (same ▸ busy)).2 (state.symm.trans closed)
      rw [closing, asked, Bool.true_or]

theorem Tried.step (tried : Tried role past link)
    (stepped : link.step move = some (effects, next)) :
    Tried role (past ++ report move effects) next := by
  have change := step_change stepped
  obtain ⟨placed, told, limited⟩ : Placed (past ++ report move effects) next ∧
      Told role (past ++ report move effects) next.establishing ∧
      Limited (past ++ report move effects) := by
    cases attempts : move.attempts with
    | true =>
      obtain ⟨call, own⟩ := exists_attempt stepped attempts
      have attempt := attempts_of_step stepped own
      refine ⟨tried.placed.attempt change attempt attempts, ?_⟩
      cases attempted : (story past).attempted with
      | true => exact tried.late attempt attempts attempted
      | false =>
        have sequel := attempt.sequel tried attempted (add_attempt _ attempts)
        exact ⟨sequel.told, sequel.limited⟩
    | false =>
      refine ⟨tried.placed.change tried.course.sound change attempts, ?_⟩
      by_cases cancelled : ∃ call, move = .cancel call
      next =>
        obtain ⟨call, rfl⟩ := cancelled
        obtain ⟨told, limited, -⟩ := tried.cancel stepped
        exact ⟨told, limited⟩
      next =>
        have sequel := tried.sequel stepped (by simp [attempts]) (not_exists.mp cancelled)
        exact ⟨sequel.told, sequel.limited⟩
  refine ⟨tried.regular.change change, tried.course.change change, placed, told, limited,
    fun call frontend queued => ?_⟩
  rcases listens_of_step stepped queued with before | rfl
  next => exact subset_report (tried.listens call frontend before)
  next => simp [report]

theorem tried_fresh (role : Role) : Tried role [] (fresh role) where
  regular := ⟨balanced_fresh role, nofun, plays_fresh role⟩
  course := course_fresh role
  placed := placed_fresh role
  told _ := ⟨false, rfl⟩
  limited := ⟨fun channel => by cases channel <;> exact Nat.zero_le 1,
    fun channel => by cases channel <;> exact Nat.zero_le 1, .inl rfl⟩
  listens := nofun

/-- What a move comes to for the calls that establish, after all that was seen until then. -/
structure Conduct (role : Role) (past : List Happening) (link : Link) (move : Move)
    (effects : List Effect) (next : Link) : Prop where
  begins : ∀ call, link.attempt? move = some call → (story past).attempted = false →
    (story past).asked = false → effects = [] ∧ next.establishing.owner? = some call
  late : ∀ call, link.attempt? move = some call →
    (story past).attempted = true ∨ (story past).asked = true →
    effects = [.established call (.error link.state.refusal)] ∧ next.state = link.state ∧
      next.establishing = link.establishing
  returns : ∀ call result, .established call result ∈ effects →
    (link.attempt? move = none ∨ (story past).attempted = false) →
    (link.attempt? move).or link.establishing.owner? = some call ∧
      Outcome role (past ++ report move effects) result next
  stays : ∀ call, link.establishing.owner? = some call →
    next.establishing.owner? = some call ∨ (∃ result, .established call result ∈ effects) ∨
      move = .cancel call
  accepts : ∀ channel stream, move = .connected channel stream →
    (story past).made.get channel = [] ∧ (role = .waiting →
      (∃ task, (story past).launches = [(task, .ok ())]) ∧
      ∃ call listeners made, link.establishing = .making call (some listeners) made ∧
        (story past).bound.get channel = [listeners.get channel])

theorem Tried.accepts {channel : Channel} {stream : Stream} (tried : Tried role past link)
    (stepped : link.step (.connected channel stream) = some (effects, next)) :
    (story past).made.get channel = [] ∧ (role = .waiting →
      (∃ task, (story past).launches = [(task, .ok ())]) ∧
      ∃ call listeners made, link.establishing = .making call (some listeners) made ∧
        (story past).bound.get channel = [listeners.get channel]) := by
  simp only [Link.step, stepEstablishing] at stepped
  split at stepped
  next call listeners made making =>
    obtain ⟨⟨missing, -⟩, -⟩ := Option.ite_none_right_eq_some.mp stepped
    have told := tried.told
    rw [making] at told
    refine ⟨?_, fun waits => ?_⟩
    next =>
      rw [told.making.2.1, Channels.get_lists, Option.isNone_iff_eq_none.mp missing]
      rfl
    next =>
      cases listeners with
      | none => simp [told.1] at waits
      | some listeners =>
        obtain ⟨⟨asked, task, tells⟩, -⟩ := told
        rw [tells]
        exact ⟨⟨task, rfl⟩, call, listeners, made, making, by cases channel <;> rfl⟩
  next => cases stepped

theorem Tried.conduct (tried : Tried role past link)
    (stepped : link.step move = some (effects, next)) :
    Conduct role past link move effects next where
  begins _ own untried unasked :=
    (attempts_of_step stepped own).of_idle (tried.idle_iff.mpr ⟨untried, unasked⟩)
  late _ own late := by
    refine (attempts_of_step stepped own).of_begun fun idle => ?_
    obtain ⟨untried, unasked⟩ := tried.idle_iff.mp idle
    simp [untried, unasked] at late
  returns call result member prompt := by
    by_cases cancelled : ∃ call, move = .cancel call
    next =>
      obtain ⟨other, rfl⟩ := cancelled
      exact absurd member ((tried.cancel stepped).2.2.1 call result)
    next =>
      refine (tried.sequel stepped (fun attempts => ?_) (not_exists.mp cancelled)).returns call
        result member
      refine prompt.resolve_left fun none => ?_
      obtain ⟨other, own⟩ := exists_attempt stepped attempts
      simp [own] at none
  stays call owner := by
    have busy := Establishing.ne_absent_of_owner owner
    cases attempts : move.attempts with
    | true =>
      obtain ⟨other, own⟩ := exists_attempt stepped attempts
      have begun := (tried.course.sound.busy busy).1
      have same := ((attempts_of_step stepped own).of_begun begun).2.2
      exact .inl (same ▸ owner)
    | false =>
      by_cases cancelled : ∃ call, move = .cancel call
      next =>
        obtain ⟨other, rfl⟩ := cancelled
        by_cases own : other = call
        next => exact .inr (.inr (own ▸ rfl))
        next =>
          have same := (tried.cancel stepped).2.2.2 fun owner' =>
            own (Option.some.inj (owner'.symm.trans owner))
          exact .inl (same ▸ owner)
      next =>
        have sequel := tried.sequel stepped (by simp [attempts]) (not_exists.mp cancelled)
        rw [attempt?_eq_none attempts] at sequel
        exact (sequel.stays call owner).imp_right .inl
  accepts channel stream same := by
    subst same
    exact tried.accepts stepped

end Tried

end TpmRelay.Link
