import TpmRelay.Proofs.Reassembly.Operations
import TpmRelay.Proofs.Session.Queues

set_option autoImplicit false

namespace TpmRelay.Session

def Half.Emptied (half : Half) : Prop :=
  half.call = none ∧ Incomplete half.stream.queue.bytes

inductive Phase.Drained : Phase → Side → Prop where
  | draining {closed : Side} : Drained (.draining closed .client) .simulator
  | releasing {current closed side : Side} :
      Drained (.releasing current (.exited (.closed closed))) side
  | ended {closed side : Side} : Drained (.ended (.exited (.closed closed))) side

variable {session session' : Session} {happenings : List Happening}

theorem Phase.Drained.ne {origin side : Side} (drained : session.phase.Drained side)
    (polled : session.polls origin = true) : side ≠ origin := by
  unfold polls at polled
  generalize session.phase = phase at drained polled
  cases drained with
  | draining =>
    rw [← of_decide_eq_true polled]
    decide
  | releasing | ended => simp at polled

theorem Change.empties (change : Change session happenings session')
    (emptied : ∀ side, session.phase.Drained side → (session.half side).Emptied) (side : Side)
    (drained : session'.phase.Drained side) : (session'.half side).Emptied := by
  -- `passed` adds the simulator and `drained` the client; no other change adds a side or fills one.
  cases change with
  | queued => simpa [Half.Emptied] using emptied side drained
  | requested | askedEvents | askedResume | sent => exact emptied side drained
  | opened | closed | control | forwarded => cases drained
  | data _ relaying =>
    simp only [phase_withHalf, phase_record, relaying] at drained
    cases drained
  | returned polled =>
    have other := drained.ne polled
    simpa [half_withHalf, other] using emptied side drained
  | dispatched polled =>
    have other := drained.ne polled
    simpa [half_withHalf, other] using emptied side drained
  | passed _ idle incomplete =>
    cases drained
    exact ⟨idle, Reassembly.incomplete_of_extract incomplete⟩
  | concluded ending =>
    cases ending with
    | @drained closed draining idle incomplete =>
      refine ⟨by simp, ?_⟩
      cases side with
      | client => simpa using Reassembly.incomplete_of_extract incomplete
      | simulator => simpa using (emptied .simulator (draining ▸ .draining)).2
    | _ => cases drained
  | released releasing =>
    cases drained
    exact emptied side (releasing ▸ .releasing)
  | flushed releasing | ended releasing =>
    cases drained
    exact emptied side (releasing ▸ .releasing)

def Happening.isMilestone : Happening → Bool
  | took .. | returned .. | did (.dispatch ..) | did (.close _) => true
  | _ => false

/-- The events, calls and closes of a journal. What calls write in between is up to them. -/
def milestones (happenings : List Happening) : List Happening :=
  happenings.filter Happening.isMilestone

@[simp] theorem milestones_append (first second : List Happening) :
    milestones (first ++ second) = milestones first ++ milestones second :=
  List.filter_append ..

def Half.script (half : Half) (side : Side) : List Happening :=
  (if half.call.isSome then [.returned side (.ok ())] else []) ++
    half.stream.extractAll.1.flatMap fun packet =>
      [.did (.dispatch side packet), .returned side (.ok ())]

def scriptFrom (session : Session) (current : Side) : List Happening :=
  (drainOrder current).flatMap (fun side => (session.half side).script side) ++
    [.did (.close .simulator), .did (.close .client)]

def remaining (session : Session) : List Happening :=
  match session.phase with
  | .draining _ current => session.scriptFrom current
  | .releasing .simulator _ => [.did (.close .client)]
  | _ => []

section Script

variable {half : Half} {packet : Packet} {stream : Reassembly} (side : Side)

theorem Half.script_returned (busy : half.call.isSome) :
    half.script side =
      .returned side (.ok ()) :: ({ half with call := none } : Half).script side := by
  simp [Half.script, busy]

theorem Half.script_dispatched (idle : half.call = none)
    (extracted : half.stream.extract = (.packet packet, stream)) :
    half.script side = .did (.dispatch side packet) ::
      ({ half with stream, call := some packet } : Half).script side := by
  simp [Half.script, idle, Reassembly.extractAll_of_packet extracted]

theorem Half.script_emptied (idle : half.call = none)
    (incomplete : half.stream.extract.1 = .incomplete) : half.script side = [] := by
  have none : ∀ packet, half.stream.extract.1 ≠ .packet packet := by simp [incomplete]
  simp [Half.script, idle, Reassembly.extractAll_eq_of_no_packet none]

end Script

/-- What may keep a session from closing in order. -/
inductive Interrupted (start : Session) (past : List Happening) : Outcome → Prop where
  | shutdown (requested : .shutdown ∈ past) : Interrupted start past (.exited .shutdown)
  | faulty {side : Side} {fault : Fault} (returned : .returned side (.error fault) ∈ past) :
      Interrupted start past (.failed (.handler side fault))
  | malformed {side : Side} {size : UInt32}
      (malformed : (start.half side).stream.extractAll.2.1 = .malformed size) :
      Interrupted start past (.failed (.framing side size))

def closedBy : Outcome → Option Side
  | .exited (.closed closed) => some closed
  | .exited .shutdown | .failed _ => none

def Phase.closes? : Phase → Option Side
  | draining closed _ => some closed
  | releasing _ outcome | ended outcome => closedBy outcome
  | opening | relaying | forwarding .. => none

theorem Phase.closing_of_closes? {phase : Phase} {closed : Side}
    (closes : phase.closes? = some closed) : phase.closing = true := by
  cases phase with
  | draining | releasing | ended => rfl
  | _ => simp [closes?] at closes

theorem draining_of_polls {side : Side} (closing : session.phase.closing = true)
    (polled : session.polls side = true) : ∃ closed, session.phase = .draining closed side := by
  cases phase : session.phase with
  | draining closed current =>
    simp only [polls, phase, decide_eq_true_eq] at polled
    exact ⟨closed, by rw [polled]⟩
  | _ => simp_all [polls, Phase.closing]

theorem remaining_draining {closed current : Side}
    (draining : session.phase = .draining closed current) :
    session.remaining = session.scriptFrom current := by
  simp [remaining, draining]

theorem remaining_withHalf {closed current : Side} {first : Happening} (f : Half → Half)
    (draining : session.phase = .draining closed current)
    (script : (session.half current).script current =
      first :: (f (session.half current)).script current) :
    session.remaining = first :: (session.withHalf current f).remaining := by
  rw [remaining_draining draining, remaining, phase_withHalf, draining]
  cases current <;> simp [scriptFrom, drainOrder, half_withHalf, script]

theorem remaining_returned {closed current : Side}
    (draining : session.phase = .draining closed current)
    (busy : (session.half current).call.isSome) :
    session.remaining = .returned current (.ok ()) ::
      (session.withHalf current fun half => { half with call := none }).remaining :=
  remaining_withHalf (fun half => { half with call := none }) draining
    (Half.script_returned current busy)

theorem remaining_dispatched {closed current : Side} {packet : Packet} {stream : Reassembly}
    (draining : session.phase = .draining closed current)
    (idle : (session.half current).call = none)
    (extracted : (session.half current).stream.extract = (.packet packet, stream)) :
    session.remaining = .did (.dispatch current packet) ::
      (session.withHalf current fun half => { half with stream, call := some packet }).remaining :=
  remaining_withHalf (fun half => { half with stream, call := some packet }) draining
    (Half.script_dispatched current idle extracted)

theorem remaining_passed {closed : Side} (draining : session.phase = .draining closed .simulator)
    (emptied : (session.half .simulator).script .simulator = []) :
    session.remaining = ({ session with phase := .draining closed .client } : Session).remaining := by
  rw [remaining_draining draining]
  simp [remaining, scriptFrom, drainOrder, emptied]

theorem remaining_drained {closed : Side} (draining : session.phase = .draining closed .client)
    (emptied : (session.half .client).script .client = []) :
    session.remaining = [.did (.close .simulator), .did (.close .client)] := by
  simp [remaining_draining draining, scriptFrom, drainOrder, emptied]

theorem remaining_queued {side : Side} {inbox : Link.Inbox} :
    (session.withHalf side fun half => { half with inbox }).remaining = session.remaining := by
  simp [remaining, scriptFrom, Half.script]

structure Orderly (start : Session) (closed : Side) (past : List Happening) (session : Session) :
    Prop where
  rest : milestones past ++ session.remaining = start.remaining
  outcomes : ∀ side,
    (session.half side).stream.extractAll.2.1 = (start.half side).stream.extractAll.2.1
  closes : session.phase.closes? = some closed

theorem Orderly.advance {start : Session} {closed : Side} {past : List Happening}
    (orderly : Orderly start closed past session)
    (rest : milestones happenings ++ session'.remaining = session.remaining)
    (outcomes : ∀ side,
      (session'.half side).stream.extractAll.2.1 = (session.half side).stream.extractAll.2.1)
    (closes : session'.phase.closes? = session.phase.closes?) :
    Orderly start closed (past ++ happenings) session' where
  rest := by rw [milestones_append, List.append_assoc, rest, orderly.rest]
  outcomes side := (outcomes side).trans (orderly.outcomes side)
  closes := closes.trans orderly.closes

def OnScript (start : Session) (closed : Side) (past : List Happening) (session : Session) : Prop :=
  Orderly start closed past session ∨
    ∃ outcome, session.phase.verdict? = some outcome ∧ Interrupted start past outcome

theorem Orderly.change {start : Session} {closed : Side} {past : List Happening}
    (orderly : Orderly start closed past session) (change : Change session happenings session') :
    OnScript start closed (past ++ happenings) session' := by
  -- A change takes the first milestones off what remains, or it is an ending that interrupts.
  have closing := Phase.closing_of_closes? orderly.closes
  cases change with
  | queued => exact .inl (orderly.advance remaining_queued (by simp) rfl)
  | requested => exact .inl (orderly.advance rfl (fun _ => rfl) rfl)
  | sent => exact .inl (orderly.advance rfl (fun _ => rfl) rfl)
  | askedEvents phase | askedResume phase | opened phase | closed phase | data _ phase
  | control _ phase | forwarded phase => simp [phase, Phase.closing] at closing
  | returned polled busy =>
    obtain ⟨closed', draining⟩ := draining_of_polls closing polled
    refine .inl (orderly.advance ?_ (by simp) rfl)
    rw [remaining_returned draining busy]
    rfl
  | @dispatched side packet stream polled idle extracted =>
    obtain ⟨closed', draining⟩ := draining_of_polls closing polled
    refine .inl (orderly.advance ?_ ?_ rfl)
    next =>
      rw [remaining_dispatched draining idle extracted]
      rfl
    next =>
      intro other
      by_cases same : other = side
      next => simp [half_withHalf, same, Reassembly.extractAll_of_packet extracted]
      next => simp [half_withHalf, same]
  | passed draining idle incomplete =>
    refine .inl (orderly.advance ?_ (fun _ => rfl) (by simp [draining, Phase.closes?]))
    rw [remaining_passed draining (Half.script_emptied _ idle incomplete)]
    rfl
  | concluded ending =>
    cases ending with
    | refused phase | unforwarded phase => simp [phase, Phase.closing] at closing
    | faulty => exact .inr ⟨_, rfl, .faulty (by simp)⟩
    | @malformed side size _ _ malformed =>
      have none : ∀ packet, (session.half side).stream.extract.1 ≠ .packet packet := by
        simp [malformed]
      have outcome := orderly.outcomes side
      -- The stream that is left has the outcome that the whole one had.
      rw [Reassembly.extractAll_eq_of_no_packet none, malformed] at outcome
      exact .inr ⟨_, rfl, .malformed outcome.symm⟩
    | shutdown => exact .inr ⟨_, rfl, .shutdown (by simp)⟩
    | drained draining idle incomplete =>
      refine .inl (orderly.advance ?_ (by simp) (by simp [draining, Phase.closes?, closedBy]))
      rw [remaining_drained draining (Half.script_emptied _ idle incomplete)]
      rfl
  | released releasing =>
    refine .inl (orderly.advance ?_ (fun _ => rfl) ?_)
    next => simp [remaining, releasing, milestones, Happening.isMilestone]
    next => simp [releasing, Phase.closes?]
  | flushed releasing | ended releasing =>
    refine .inl (orderly.advance ?_ (fun _ => rfl) ?_)
    next => simp [remaining, releasing, milestones, Happening.isMilestone]
    next => simp [releasing, Phase.closes?]

theorem Change.verdict?_stays {outcome : Outcome} (change : Change session happenings session')
    (verdict : session.phase.verdict? = some outcome) : session'.phase.verdict? = some outcome := by
  cases change with
  | concluded ending =>
    cases ending with
    | shutdown waiting =>
      rcases waiting with phase | ⟨_, _, phase⟩ <;> simp [phase, Phase.verdict?] at verdict
    | faulty polled | malformed polled => simp [verdict?_of_polls polled] at verdict
    | _ => simp_all [Phase.verdict?]
  | _ => simp_all [Phase.verdict?]

theorem Interrupted.later {start : Session} {past : List Happening} {outcome : Outcome}
    (interrupted : Interrupted start past outcome) (happenings : List Happening) :
    Interrupted start (past ++ happenings) outcome := by
  cases interrupted with
  | shutdown requested => exact .shutdown (List.mem_append_left _ requested)
  | faulty returned => exact .faulty (List.mem_append_left _ returned)
  | malformed malformed => exact .malformed malformed

theorem OnScript.change {start : Session} {closed : Side} {past : List Happening}
    (onScript : OnScript start closed past session) (change : Change session happenings session') :
    OnScript start closed (past ++ happenings) session' := by
  rcases onScript with orderly | ⟨outcome, verdict, interrupted⟩
  next => exact orderly.change change
  next => exact .inr ⟨outcome, change.verdict?_stays verdict, interrupted.later happenings⟩

theorem onScript_of_journal {closed current : Side} {moves : List Move}
    (draining : session.phase = .draining closed current)
    (run : session.journal moves = some (happenings, session')) :
    OnScript session closed happenings session' := by
  have start : Orderly session closed [] session :=
    ⟨rfl, fun _ => rfl, by simp [draining, Phase.closes?]⟩
  exact journal_induction [] (.inl start) OnScript.change run

theorem emptied_of_journal {closed : Side} {moves : List Move}
    (draining : session.phase = .draining closed .simulator)
    (run : session.journal moves = some (happenings, session')) (side : Side)
    (drained : session'.phase.Drained side) : (session'.half side).Emptied := by
  have start (side : Side) (drained : session.phase.Drained side) : (session.half side).Emptied := by
    rw [draining] at drained
    cases drained
  exact journal_induction (motive := fun _ later =>
    ∀ side, later.phase.Drained side → (later.half side).Emptied) [] start
    (fun emptied change => change.empties emptied) run side drained

def Phase.rank : Phase → Nat
  | draining _ .simulator => 2
  | draining _ .client | releasing .. => 1
  | ended _ | opening | relaying | forwarding .. => 0

def pending (session : Session) : Nat :=
  session.remaining.length + session.phase.rank

def Move.advances : Move → Bool
  | returned .. | drain | released => true
  | _ => false

theorem two_lt_pending {closed current : Side} (draining : session.phase = .draining closed current) :
    2 < session.pending := by
  rw [pending, remaining_draining draining, draining, scriptFrom]
  cases current <;> simp [Phase.rank]

theorem Ending.draining {outcome : Outcome} (ending : Ending session happenings outcome)
    (closing : session.phase.closing = true) :
    ∃ closed current, session.phase = .draining closed current := by
  cases ending with
  | refused phase | unforwarded phase => simp [phase, Phase.closing] at closing
  | faulty polled | malformed polled =>
    obtain ⟨closed, draining⟩ := draining_of_polls closing polled
    exact ⟨closed, _, draining⟩
  | shutdown waiting =>
    rcases waiting with phase | draining
    next => simp [phase, Phase.closing] at closing
    next => exact draining
  | drained draining => exact ⟨_, _, draining⟩

structure Rests (session : Session) (happenings : List Happening) (session' : Session) : Prop where
  quiet : milestones happenings = []
  phase : session'.phase = session.phase
  pending : session'.pending = session.pending
  calls : ∀ side, (session'.half side).call = (session.half side).call

theorem Change.pending (change : Change session happenings session')
    (closing : session.phase.closing = true) :
    session'.pending < session.pending ∨ Rests session happenings session' := by
  cases change with
  | queued => exact .inr ⟨rfl, rfl, by simp [Session.pending, remaining_queued], by simp⟩
  | requested => exact .inr ⟨rfl, rfl, rfl, fun _ => rfl⟩
  | sent => exact .inr ⟨rfl, rfl, rfl, fun _ => rfl⟩
  | askedEvents phase | askedResume phase | opened phase | closed phase | data _ phase
  | control _ phase | forwarded phase => simp [phase, Phase.closing] at closing
  | returned polled busy =>
    obtain ⟨closed, draining⟩ := draining_of_polls closing polled
    left
    simp [Session.pending, remaining_returned draining busy]
  | dispatched polled idle extracted =>
    obtain ⟨closed, draining⟩ := draining_of_polls closing polled
    left
    simp [Session.pending, remaining_dispatched draining idle extracted]
  | passed draining idle incomplete =>
    left
    simp [Session.pending, remaining_passed draining (Half.script_emptied _ idle incomplete),
      draining, Phase.rank]
  | concluded ending =>
    obtain ⟨closed, current, draining⟩ := ending.draining closing
    exact .inl (two_lt_pending draining)
  | released releasing =>
    left
    simp [Session.pending, remaining, releasing, Phase.rank]
  | flushed releasing | ended releasing =>
    left
    simp [Session.pending, remaining, releasing, Phase.rank]

theorem Changes.pending (changes : Changes session happenings session')
    (closing : session.phase.closing = true) :
    session'.pending < session.pending ∨ Rests session happenings session' := by
  induction changes with
  | refl => exact .inr ⟨rfl, rfl, rfl, fun _ => rfl⟩
  | step change rest ih =>
    rcases change.pending closing, ih (change.closing closing) with ⟨less | rests, less' | rests'⟩
    next => exact .inl (Nat.lt_trans less' less)
    next => exact .inl (rests'.pending ▸ less)
    next => exact .inl (rests.pending ▸ less')
    next =>
      refine .inr ⟨?_, rests'.phase.trans rests.phase, rests'.pending.trans rests.pending, ?_⟩
      next => rw [milestones_append, rests.quiet, rests'.quiet, List.append_nil]
      next => exact fun side => (rests'.calls side).trans (rests.calls side)

theorem busy_of_drain {closed closed' current : Side} {sides : List Side}
    (draining : (session.drain closed sides).2.phase = .draining closed' current) :
    ((session.drain closed sides).2.half current).call.isSome := by
  induction sides generalizing session with
  | nil => simp [drain] at draining
  | cons side later ih =>
    rw [drain] at draining ⊢
    cases dispatched : session.dispatch side with
    | error failure => simp [dispatched, fail] at draining
    | ok progress =>
      obtain ⟨effects, next⟩ := progress
      simp only [dispatched] at draining ⊢
      split at draining
      next busy =>
        obtain ⟨rfl, rfl⟩ := Phase.draining.inj draining
        simp [busy]
      next idle =>
        simp only [idle]
        exact ih draining

theorem not_rests_of_advances {move : Move} {progress : Progress}
    (advances : move.advances = true) (stepped : session.step move = some progress) :
    ¬ Rests session (session.observe move ++ deeds progress.1) progress.2 := by
  intro rests
  -- A return is a milestone, draining stops at a new call, and a release changes the phase.
  cases move with
  | returned =>
    have quiet := rests.quiet
    simp [observe, milestones, Happening.isMilestone] at quiet
  | drain =>
    cases phase : session.phase with
    | draining closed current =>
      simp only [step, phase, Option.ite_none_right_eq_some, Option.some.injEq] at stepped
      obtain ⟨idle, rfl⟩ := stepped
      have busy := busy_of_drain (rests.phase.trans phase)
      rw [rests.calls] at busy
      simp [Option.isNone_iff_eq_none.mp idle] at busy
    | _ => simp [step, phase] at stepped
  | released =>
    have same := rests.phase
    cases phase : session.phase with
    | releasing current outcome =>
      cases current with
      | simulator =>
        simp only [step, phase, Option.some.injEq] at stepped
        simp [← stepped, phase] at same
      | client =>
        simp only [step, phase, Option.some.injEq] at stepped
        simp [← stepped, phase] at same
    | _ => simp [step, phase] at stepped
  | _ => simp [Move.advances] at advances

theorem step_pending {move : Move} {progress : Progress} (closing : session.phase.closing = true)
    (stepped : session.step move = some progress) :
    progress.2.pending + (if move.advances then 1 else 0) ≤ session.pending := by
  rcases (step_changes stepped).pending closing with less | rests
  next =>
    split
    next => exact less
    next => exact Nat.le_of_lt less
  next =>
    split
    next advances => exact absurd rests (not_rests_of_advances advances stepped)
    next => exact Nat.le_of_eq rests.pending

theorem advances_le_pending {moves : List Move} (closing : session.phase.closing = true)
    (run : session.journal moves = some (happenings, session')) :
    moves.countP Move.advances + session'.pending ≤ session.pending := by
  induction moves generalizing session happenings with
  | nil =>
    simp only [journal, Option.some.injEq, Prod.mk.injEq] at run
    simp [run.2]
  | cons move moves ih =>
    obtain ⟨effects, next, later, stepped, rest, rfl⟩ := journal_cons run
    have first : next.pending + (if move.advances then 1 else 0) ≤ session.pending :=
      step_pending closing stepped
    have others : moves.countP Move.advances + session'.pending ≤ next.pending :=
      ih (step_closing closing stepped) rest
    rw [List.countP_cons]
    omega

theorem exists_advance (closing : session.phase.closing = true) (unfinished : session.outcome? = none) :
    ∃ move, move.advances = true ∧ (session.step move).isSome := by
  cases phase : session.phase with
  | draining closed current =>
    cases call : (session.half current).call with
    | none => exact ⟨.drain, rfl, by simp [step, phase, call]⟩
    | some packet => exact ⟨.returned current (.ok ()), rfl, by simp [step, phase, call]⟩
  | releasing current outcome =>
    exact ⟨.released, rfl, by cases current <;> simp [step, phase]⟩
  | ended outcome => simp [outcome?, phase] at unfinished
  | _ => simp [phase, Phase.closing] at closing

section Close

variable {side : Side} {event : Option Link.Event} {inbox : Link.Inbox}

def afterClose (session : Session) (side : Side) (inbox : Link.Inbox) : Session :=
  { session.withHalf side fun half => { half with inbox } with phase := .draining side .simulator }

/-- What is to come when a close is taken now. -/
def script (session : Session) : List Happening :=
  session.scriptFrom .simulator

theorem step_take_close (relaying : session.phase = .relaying)
    (taken : (session.half side).inbox.take = some (event, inbox))
    (closing : event = none ∨ event = some .closed) (time : Capture.Timestamp) :
    session.step (.take side time) =
      some ([.note (.closed side)], session.afterClose side inbox) := by
  rcases closing with rfl | rfl <;> simp [step, relaying, take, taken, afterClose]

theorem journal_take_close (relaying : session.phase = .relaying)
    (taken : (session.half side).inbox.take = some (event, inbox))
    (closing : event = none ∨ event = some .closed) (time : Capture.Timestamp) (moves : List Move) :
    session.journal (.take side time :: moves) =
      ((session.afterClose side inbox).journal moves).map fun (later, last) =>
        (.took side event :: later, last) := by
  rw [journal_step (step_take_close relaying taken closing time)]
  simp [observe, taken]

theorem remaining_afterClose : (session.afterClose side inbox).remaining = session.script := by
  simp [remaining, afterClose, script, scriptFrom, Half.script]

theorem pending_afterClose :
    (session.afterClose side inbox).pending = session.script.length + 2 := by
  rw [pending, remaining_afterClose]
  rfl

theorem blind_afterClose :
    (session.afterClose side inbox).blind = { session.blind with phase := .draining side .simulator } := by
  cases side <;> rfl

theorem Interrupted.of_afterClose {outcome : Outcome}
    (interrupted : Interrupted (session.afterClose side inbox) happenings outcome) (first : Happening) :
    Interrupted session (first :: happenings) outcome := by
  cases interrupted with
  | shutdown requested => exact .shutdown (List.mem_cons_of_mem _ requested)
  | faulty returned => exact .faulty (List.mem_cons_of_mem _ returned)
  | malformed malformed => exact .malformed (by simpa [afterClose] using malformed)

theorem Orderly.outcome_eq {start : Session} {closed : Side} {past : List Happening}
    {outcome : Outcome} (orderly : Orderly start closed past session)
    (ended : session.phase = .ended outcome) : outcome = .exited (.closed closed) := by
  have closes := orderly.closes
  rw [ended, Phase.closes?] at closes
  unfold closedBy at closes
  split at closes
  next => rw [Option.some.inj closes]
  next => simp at closes
  next => simp at closes

theorem close_drains_and_reads_nothing_more (relaying : session.phase = .relaying)
    (taken : (session.half side).inbox.take = some (event, inbox))
    (closing : event = none ∨ event = some .closed) (time : Capture.Timestamp) :
    (session.step (.take side time)).isSome ∧
    (∀ (moves : List Move) (happenings : List Happening) (session' : Session),
      session.journal (.take side time :: moves) = some (happenings, session') →
      -- The calls go on in order and the links are closed last, unless something goes wrong.
      ((∃ outcome, session'.phase.verdict? = some outcome ∧
          Interrupted session happenings outcome) ∨
        milestones happenings <+: .took side event :: session.script ∧
        ∀ outcome, session'.outcome? = some outcome →
          outcome = .exited (.closed side) ∧
          milestones happenings = .took side event :: session.script ∧
          ∀ other, Incomplete (session'.half other).stream.queue.bytes) ∧
      -- The end comes once the calls return.
      moves.countP Move.advances ≤ session.script.length + 2 ∧
      (session'.outcome? = none →
        ∃ move, move.advances = true ∧ (session'.step move).isSome)) ∧
    -- What else is queued makes no difference.
    ∀ (twin : Session) (event' : Option Link.Event) (inbox' : Link.Inbox)
      (time' : Capture.Timestamp) (moves moves' : List Move) (happenings : List Happening)
      (session' : Session),
      twin.blind = session.blind → (twin.half side).inbox.take = some (event', inbox') →
      event' = none ∨ event' = some .closed →
      moves'.filter (!·.queues) = moves.filter (!·.queues) →
      session.journal (.take side time :: moves) = some (.took side event :: happenings, session') →
      ∃ twin', twin.journal (.take side time' :: moves') =
          some (.took side event' :: happenings, twin') ∧
        twin'.blind = session'.blind := by
  refine ⟨by simp [step_take_close relaying taken closing], ?_, ?_⟩
  next =>
    intro moves happenings session' run
    rw [journal_take_close relaying taken closing] at run
    obtain ⟨⟨later, last⟩, rest, same⟩ := Option.map_eq_some_iff.mp run
    obtain ⟨rfl, rfl⟩ := Prod.mk.inj same
    -- From here on the run is that of the session after the close, whose script is the same.
    have bound := advances_le_pending rfl rest
    rw [pending_afterClose] at bound
    have stillClosing : last.phase.closing = true := closing_of_run rfl rest
    refine ⟨?_, Nat.le_trans (Nat.le_add_right _ _) bound, exists_advance stillClosing⟩
    rcases onScript_of_journal rfl rest with orderly | ⟨outcome, verdict, interrupted⟩
    next =>
      have whole : milestones (.took side event :: later) ++ last.remaining =
          .took side event :: session.script := by
        rw [← remaining_afterClose, ← orderly.rest]
        rfl
      refine .inr ⟨⟨_, whole⟩, ?_⟩
      intro outcome ended
      have phase := phase_of_outcome? ended
      obtain rfl := orderly.outcome_eq phase
      refine ⟨rfl, ?_, ?_⟩
      next => simpa [remaining, phase] using whole
      next =>
        intro other
        have emptied := emptied_of_journal rfl rest other (phase ▸ .ended)
        exact emptied.2
    next => exact .inl ⟨outcome, verdict, interrupted.of_afterClose _⟩
  next =>
    intro twin event' inbox' time' moves moves' happenings session' same takenToo closingToo
      sameMoves run
    have relayingToo : twin.phase = .relaying := by
      rw [← phase_blind, same, phase_blind, relaying]
    have sameAfter : (twin.afterClose side inbox').blind = (session.afterClose side inbox).blind := by
      rw [blind_afterClose, blind_afterClose, same]
    rw [journal_take_close relaying taken closing] at run
    obtain ⟨⟨later, last⟩, rest, agree⟩ := Option.map_eq_some_iff.mp run
    simp only [Prod.mk.injEq, List.cons.injEq, true_and] at agree
    obtain ⟨rfl, rfl⟩ := agree
    obtain ⟨twin', ran, alike⟩ := journal_of_queues rfl sameAfter sameMoves rest
    refine ⟨twin', ?_, alike⟩
    rw [journal_take_close relayingToo takenToo closingToo, ran]
    rfl

def parting (simulator client : List Link.Event) : Session where
  phase := .relaying
  halves :=
    ⟨{ inbox := { queued := .closed :: simulator }, stream := ⟨⟨ping.serialize ++ [0x80]⟩⟩,
        call := some ping },
      { inbox := { queued := client }, stream := ⟨⟨ping.serialize⟩⟩ }⟩

def partingMoves : List Move :=
  [.returned .simulator (.ok ()), .returned .simulator (.ok ()), .returned .client (.ok ()),
    .released, .released]

theorem parting_drains :
    ∃ happenings last, (parting [] []).journal (.take .simulator (.millis 0) :: partingMoves) =
        some (.took .simulator (some .closed) :: happenings, last) ∧
      milestones (.took .simulator (some .closed) :: happenings) =
        .took .simulator (some .closed) :: (parting [] []).script ∧
      ∃ last', (parting [.chunk .data ping.serialize] [.closed]).journal
          (.take .simulator (.millis 0) :: partingMoves) =
        some (.took .simulator (some .closed) :: happenings, last') := by
  have run : ∃ happenings last,
      (parting [] []).journal (.take .simulator (.millis 0) :: partingMoves) =
        some (.took .simulator (some .closed) :: happenings, last) ∧
      last.phase = .ended (.exited (.closed .simulator)) := ⟨_, _, rfl, rfl⟩
  obtain ⟨happenings, last, run, ended⟩ := run
  have taken : ((parting [] []).half .simulator).inbox.take = some (some .closed, {}) := rfl
  have ⟨_, order, alike⟩ := close_drains_and_reads_nothing_more rfl taken (.inr rfl) (.millis 0)
  obtain ⟨twin, ran, _⟩ := alike (parting [.chunk .data ping.serialize] [.closed]) _ _ (.millis 0)
    _ partingMoves happenings last rfl rfl (.inr rfl) rfl run
  refine ⟨happenings, last, run, ?_, twin, ran⟩
  rcases (order _ _ last run).1 with ⟨outcome, verdict, interrupted⟩ | ⟨_, complete⟩
  next =>
    rw [ended, Phase.verdict?, Option.some.injEq] at verdict
    subst verdict
    cases interrupted
  next => exact (complete (.exited (.closed .simulator)) (by simp [outcome?, ended])).2.1

end Close

end TpmRelay.Session
