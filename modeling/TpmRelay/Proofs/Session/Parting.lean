import TpmRelay.Proofs.Session.Change

set_option autoImplicit false

namespace TpmRelay

namespace Recording

def works : Recording → Bool
  | active _ => true
  | absent | abandoned _ | finished _ => false

def settled : Recording → Recording
  | active recorder => finished recorder
  | other => other

@[simp] theorem recorder?_settled (recording : Recording) :
    recording.settled.recorder? = recording.recorder? := by
  cases recording <;> rfl

end Recording

namespace Session

def Happening.parts : Happening → Bool
  | did (.close _) | did .flush => true
  | _ => false

/-- What has been seen of a session since its outcome was settled. -/
def Phase.farewell (flushing : Bool) : Phase → List Happening
  | releasing .simulator _ => [.did (.close .simulator)]
  | releasing .client _ => [.did (.close .simulator), .did (.close .client)]
  | ended _ =>
    [.did (.close .simulator), .did (.close .client)] ++ if flushing then [.did .flush] else []
  | opening | relaying | forwarding .. | draining .. => []

def Phase.releases : Phase → List Move
  | releasing .simulator _ => [.released, .released]
  | releasing .client _ => [.released]
  | opening | relaying | forwarding .. | draining .. | ended _ => []

def Phase.leaves (recording : Recording) : Phase → Recording
  | ended _ => recording.settled
  | opening | relaying | forwarding .. | draining .. | releasing .. => recording

section

variable {session session' : Session} {happenings : List Happening} {outcome : Outcome}
  {recording : Recording} {said : List Happening}

theorem Ending.unsettled (ending : Ending session happenings outcome) :
    session.phase.verdict? = none := by
  cases ending with
  | refused phase | unforwarded phase | drained phase => simp [phase, Phase.verdict?]
  | faulty polled | malformed polled => exact verdict?_of_polls polled
  | shutdown waiting =>
    rcases waiting with phase | ⟨_, _, phase⟩ <;> simp [phase, Phase.verdict?]

theorem Ending.no_parts (ending : Ending session happenings outcome) :
    ∀ happening ∈ happenings, happening.parts = false := by
  cases ending <;> simp [Happening.parts]

theorem Change.settles_or_no_parts (change : Change session happenings session')
    (unsettled : session.phase.verdict? = none) :
    (∃ outcome cause, Ending session cause outcome ∧
        happenings = cause ++ [.did (.close .simulator)] ∧
        session' = (session.conclude outcome).2) ∨
      session'.phase.verdict? = none ∧ ∀ happening ∈ happenings, happening.parts = false := by
  cases change with
  | concluded ending => exact .inl ⟨_, _, ending, rfl, rfl⟩
  | released phase | flushed phase | ended phase => simp [phase, Phase.verdict?] at unsettled
  | _ => exact .inr (by simp_all [Phase.verdict?, Happening.parts])

structure Parting (outcome : Outcome) (recording : Recording) (said : List Happening)
    (session : Session) : Prop where
  verdict : session.phase.verdict? = some outcome
  farewell : said = session.phase.farewell recording.works
  capture : session.recording = session.phase.leaves recording
  idle : ∀ side, (session.half side).call = none

theorem Parting.conclude (session : Session) (outcome : Outcome) :
    Parting outcome session.recording [.did (.close .simulator)] (session.conclude outcome).2 where
  verdict := rfl
  farewell := rfl
  capture := rfl
  idle side := by simp

theorem Parting.change (parting : Parting outcome recording said session)
    (change : Change session happenings session') :
    Parting outcome recording (said ++ happenings) session' := by
  obtain ⟨verdict, rfl, capture, idle⟩ := parting
  cases change with
  | queued | requested => exact ⟨verdict, by simp, capture, by simpa using idle⟩
  | @released outcome' releasing =>
    simp only [releasing, Phase.verdict?, Option.some.injEq] at verdict
    subst verdict
    have same : session.recording = recording := by simp [capture, releasing, Phase.leaves]
    exact ⟨rfl, by simp [releasing, Phase.farewell], same, idle⟩
  | @flushed outcome' recorder releasing active =>
    simp only [releasing, Phase.verdict?, Option.some.injEq] at verdict
    subst verdict
    have works : recording = .active recorder := by
      simpa [capture, releasing, Phase.leaves] using active
    subst works
    exact ⟨rfl, by simp [releasing, Phase.farewell, Recording.works], rfl, idle⟩
  | @ended outcome' releasing unrecorded =>
    simp only [releasing, Phase.verdict?, Option.some.injEq] at verdict
    subst verdict
    have same : session.recording = recording := by simp [capture, releasing, Phase.leaves]
    subst same
    cases recorded : session.recording with
    | active recorder => exact absurd recorded (unrecorded recorder)
    | absent | abandoned | finished =>
      exact ⟨rfl, by simp [releasing, Phase.farewell, Recording.works],
        by simp [Phase.leaves, Recording.settled], idle⟩
  | concluded ending => simp [ending.unsettled] at verdict
  | sent polled | returned polled | dispatched polled => simp [verdict?_of_polls polled] at verdict
  | askedEvents phase | askedResume phase | opened phase | closed phase | data _ phase
  | control _ phase | forwarded phase | passed phase => simp [phase, Phase.verdict?] at verdict

theorem Parting.journal {moves : List Move} (parting : Parting outcome recording said session)
    (run : session.journal moves = some (happenings, session')) :
    Parting outcome recording (said ++ happenings) session' :=
  journal_induction said parting Parting.change run

theorem journal_last_release (releasing : session.phase = .releasing .client outcome) :
    ∃ rest last, session.journal [.released] = some (rest, last) ∧
      last.outcome? = some outcome := by
  have stepped : session.step .released = some (session.finish outcome) := by
    simp [step, releasing]
  have finished : (session.finish outcome).2.outcome? = some outcome := by simp [outcome?]
  exact ⟨_, _, journal_step stepped [], finished⟩

theorem Parting.comes_to_end (parting : Parting outcome recording said session) :
    ∃ rest last, session.journal session.phase.releases = some (rest, last) ∧
      last.outcome? = some outcome := by
  have verdict := parting.verdict
  cases phase : session.phase with
  | releasing current outcome' =>
    obtain rfl : outcome' = outcome := by simpa [phase, Phase.verdict?] using verdict
    cases current with
    | simulator =>
      let later : Session := { session with phase := .releasing .client outcome' }
      have stepped : session.step .released = some ([.close .client], later) := by
        simp [step, phase, later]
      have releasing : later.phase = .releasing .client outcome' := rfl
      obtain ⟨rest, last, run, ended⟩ := journal_last_release releasing
      refine ⟨.did (.close .client) :: rest, last, ?_, ended⟩
      rw [Phase.releases, journal_step stepped, run]
      rfl
    | client => exact journal_last_release phase
  | ended outcome' =>
    obtain rfl : outcome' = outcome := by simpa [phase, Phase.verdict?] using verdict
    exact ⟨[], session, rfl, by simp [outcome?, phase]⟩
  | _ => simp [phase, Phase.verdict?] at verdict

def Parted (first : Session) (past : List Happening) (session : Session) : Prop :=
  (Changes first past session ∧ session.phase.verdict? = none ∧
      ∀ happening ∈ past, happening.parts = false) ∨
    ∃ active last cause said outcome, Changes first active last ∧ Ending last cause outcome ∧
      past = active ++ cause ++ said ∧ (∀ happening ∈ active ++ cause, happening.parts = false) ∧
      Parting outcome last.recording said session

theorem Parted.change {first : Session} {past : List Happening}
    (parted : Parted first past session) (change : Change session happenings session') :
    Parted first (past ++ happenings) session' := by
  rcases parted with ⟨changes, unsettled, quiet⟩ |
    ⟨active, last, cause, said, outcome, changes, ending, rfl, quiet, parting⟩
  next =>
    rcases change.settles_or_no_parts unsettled with
      ⟨outcome, cause, ending, rfl, rfl⟩ | ⟨still, now⟩
    next =>
      refine .inr ⟨past, session, cause, _, outcome, changes, ending, (List.append_assoc ..).symm,
        ?_, Parting.conclude session outcome⟩
      intro happening member
      rcases List.mem_append.mp member with before | during
      next => exact quiet happening before
      next => exact ending.no_parts happening during
    next =>
      refine .inl ⟨changes.trans (.single change), still, ?_⟩
      intro happening member
      rcases List.mem_append.mp member with before | during
      next => exact quiet happening before
      next => exact now happening during
  next =>
    exact .inr ⟨active, last, cause, said ++ happenings, outcome, changes, ending,
      List.append_assoc .., quiet, parting.change change⟩

theorem parted_of_journal {first : Session} {moves : List Move}
    (unsettled : first.phase.verdict? = none)
    (run : first.journal moves = some (happenings, session)) : Parted first happenings session :=
  journal_induction [] (.inl ⟨.refl, unsettled, by simp⟩) Parted.change run

theorem journal_of_append {moves more : List Move}
    (run : session.journal (moves ++ more) = some (happenings, session')) :
    ∃ first middle later, session.journal moves = some (first, middle) ∧
      middle.journal more = some (later, session') ∧ happenings = first ++ later := by
  induction moves generalizing session happenings with
  | nil => exact ⟨[], session, happenings, rfl, run, rfl⟩
  | cons move moves ih =>
    rw [List.cons_append] at run
    obtain ⟨effects, next, rest, stepped, ran, rfl⟩ := journal_cons run
    obtain ⟨first, middle, later, before, after, rfl⟩ := ih ran
    refine ⟨session.observe move ++ deeds effects ++ first, middle, later, ?_, after,
      (List.append_assoc ..).symm⟩
    rw [journal_step stepped, before]
    rfl

theorem Change.not_opening (change : Change session happenings session')
    (started : session.phase ≠ .opening) : session'.phase ≠ .opening := by
  cases change <;> simp_all

theorem turn_not_opening (session : Session) : session.turn.2.phase ≠ .opening := by
  unfold turn
  cases session.dispatch .simulator with
  | error => simp [fail]
  | ok progress => cases dispatched : progress.2.dispatch .client <;> simp [dispatched, fail]

theorem start_not_opening (session : Session) (answers : Sides Opening) :
    (session.start answers).2.phase ≠ .opening := by
  unfold start
  split
  next => simp [fail]
  next => exact turn_not_opening session

theorem step_opening {move : Move} {progress : Progress} (opening : session.phase = .opening)
    (stepped : session.step move = some progress) :
    (∃ answers, move = .start answers ∧ progress = session.start answers) ∨
      session.observe move ++ deeds progress.1 = [] ∧
        progress.2.recording = session.recording := by
  cases move with
  | start answers =>
    have same : session.start answers = progress := by simpa [step, opening] using stepped
    exact .inl ⟨answers, rfl, same.symm⟩
  | arrive | hangUp | requestShutdown =>
    cases stepped
    exact .inr ⟨rfl, rfl⟩
  | _ => simp [step, opening, polls] at stepped

theorem journal_opening {moves : List Move}
    (run : session.journal moves = some (happenings, session'))
    (opening : session'.phase = .opening) :
    happenings = [] ∧ session'.recording = session.recording := by
  induction moves generalizing session happenings with
  | nil =>
    obtain ⟨rfl, rfl⟩ := Prod.mk.inj (Option.some.inj run)
    exact ⟨rfl, rfl⟩
  | cons move moves ih =>
    obtain ⟨effects, next, later, stepped, rest, rfl⟩ := journal_cons run
    have started {session : Session} {moves : List Move} {happenings : List Happening}
        (run : session.journal moves = some (happenings, session')) : session.phase = .opening := by
      by_contra started
      exact journal_induction (motive := fun _ later => later.phase ≠ .opening) [] started
        (fun started change => change.not_opening started) run opening
    obtain ⟨rfl, kept⟩ := ih rest
    rcases step_opening (started run) stepped with ⟨answers, rfl, same⟩ | ⟨silent, recorded⟩
    next =>
      have next : next = (session.start answers).2 := congrArg Prod.snd same
      exact absurd (next ▸ started rest) (start_not_opening session answers)
    next => exact ⟨by simpa using silent, kept.trans recorded⟩

theorem journal_refused {moves : List Move} {answers : Sides Opening} {error : Link.Error}
    (run : (fresh recording).journal moves = some (happenings, session))
    (started : .start answers ∈ moves)
    (refused : (attempt (openingCalls answers)).2 = .error error) :
    ∃ said, happenings = deeds (attempt (openingCalls answers)).1 ++ said ∧
      Parting (.failed (.link error)) recording said session := by
  obtain ⟨before, after, rfl⟩ := List.append_of_mem started
  obtain ⟨first, middle, later, opened, started, rfl⟩ := journal_of_append run
  obtain ⟨effects, next, last, stepped, rest, rfl⟩ := journal_cons started
  have opening : middle.phase = .opening := by
    cases phase : middle.phase <;> simp_all [step]
  obtain ⟨rfl, recorded⟩ := journal_opening opened opening
  have start : middle.start answers =
      ((attempt (openingCalls answers)).1 ++ [.close .simulator],
        (middle.conclude (.failed (.link error))).2) := by
    unfold start
    generalize attempt (openingCalls answers) = attempted at refused
    obtain ⟨asked, result⟩ := attempted
    subst refused
    simp [fail]
  simp only [step, opening, start, Option.some.injEq, Prod.mk.injEq] at stepped
  obtain ⟨rfl, rfl⟩ := stepped
  have parting := (Parting.conclude middle (.failed (.link error))).journal rest
  rw [recorded] at parting
  exact ⟨_, by simp [observe], parting⟩

theorem ends_by_closing_both_links {moves : List Move}
    (run : (fresh recording).journal moves = some (happenings, session)) :
    (session.phase.verdict? = none → ∀ happening ∈ happenings, happening.parts = false) ∧
    (∀ outcome, session.phase.verdict? = some outcome →
      -- The outcome was settled in `last`, with `cause` as the last thing seen before the links
      -- were let go of.
      ∃ active last cause, Changes (fresh recording) active last ∧ Ending last cause outcome ∧
        (∀ happening ∈ active ++ cause, happening.parts = false) ∧
        happenings = active ++ cause ++ session.phase.farewell last.recording.works ∧
        session.recording.recorder? = last.recording.recorder? ∧
        (∀ side, (session.half side).call = none) ∧
        ∃ rest ended, session.journal session.phase.releases = some (rest, ended) ∧
          ended.outcome? = some outcome ∧
          happenings ++ rest =
            active ++ cause ++ [.did (.close .simulator), .did (.close .client)] ++
              if last.recording.works then [.did .flush] else []) ∧
    -- A session that is refused before both links are resumed has asked for that, and nothing more.
    ∀ answers error, .start answers ∈ moves →
      (attempt (openingCalls answers)).2 = .error error →
      session.phase.verdict? = some (.failed (.link error)) ∧
      happenings =
        deeds (attempt (openingCalls answers)).1 ++ session.phase.farewell recording.works ∧
      session.recording.recorder? = recording.recorder? := by
  have same {recorded : Recording} : ∀ phase : Phase,
      (phase.leaves recorded).recorder? = recorded.recorder? := by
    intro phase
    cases phase <;> simp [Phase.leaves]
  refine ⟨?_, ?_, ?_⟩
  next =>
    intro unsettled
    rcases parted_of_journal rfl run with ⟨_, _, quiet⟩ | ⟨_, _, _, _, _, _, _, _, _, parting⟩
    next => exact quiet
    next => simp [parting.verdict] at unsettled
  next =>
    intro outcome settled
    rcases parted_of_journal rfl run with ⟨_, unsettled, _⟩ |
      ⟨active, last, cause, said, outcome', changes, ending, rfl, quiet, parting⟩
    next => simp [unsettled] at settled
    next =>
      obtain rfl : outcome' = outcome := by simpa [parting.verdict] using settled
      obtain ⟨rest, ended, released, final⟩ := parting.comes_to_end
      have whole := (parting.journal released).farewell
      rw [phase_of_outcome? final, Phase.farewell] at whole
      refine ⟨active, last, cause, changes, ending, quiet, ?_, ?_, parting.idle, rest, ended,
        released, final, ?_⟩
      next => rw [parting.farewell]
      next => rw [parting.capture, same]
      next => rw [List.append_assoc _ said, whole, List.append_assoc (active ++ cause)]
  next =>
    intro answers error started refused
    obtain ⟨said, rfl, parting⟩ := journal_refused run started refused
    exact ⟨parting.verdict, by rw [parting.farewell], by rw [parting.capture, same]⟩

-- The capture still works when the client goes, but it cannot be flushed.
def jammed : Recording :=
  .active (Capture.Recorder.create { flushFault := some ⟨.storageFull, none⟩ } {}).2

def refusing : Sides Opening :=
  ⟨{}, { resumed := .error .notConnected }⟩

theorem ending_with_jammed_capture :
    (∃ happenings session rest ended,
      (fresh jammed).journal
          [.start ⟨{}, {}⟩, .hangUp .client, .take .client (.millis 0), .drain, .released] =
        some (happenings, session) ∧
      session.recording.recorder?.map Capture.Recorder.finish =
        some (.error ⟨.storageFull, none⟩) ∧
      session.journal [.released] = some (rest, ended) ∧ rest = [.did .flush] ∧
      ended.outcome? = some (.exited (.closed .client))) ∧
    ∃ happenings session,
      (fresh jammed).journal [.start refusing, .released, .released] = some (happenings, session) ∧
      session.phase.verdict? = some (.failed (.link .notConnected)) ∧
      happenings = [.did (.takeEvents .simulator), .did (.takeEvents .client),
        .did (.resume .simulator), .did (.resume .client), .did (.close .simulator),
        .did (.close .client), .did .flush] := by
  constructor
  next =>
    have run : ∃ happenings session,
        (fresh jammed).journal
            [.start ⟨{}, {}⟩, .hangUp .client, .take .client (.millis 0), .drain, .released] =
          some (happenings, session) ∧
        session.phase = .releasing .client (.exited (.closed .client)) ∧
        session.recording.recorder?.map Capture.Recorder.finish =
          some (.error ⟨.storageFull, none⟩) ∧
        (session.journal [.released]).map Prod.fst = some [.did .flush] :=
      ⟨_, _, rfl, rfl, rfl, rfl⟩
    obtain ⟨happenings, session, run, phase, recorded, flushed⟩ := run
    have settled : session.phase.verdict? = some (.exited (.closed .client)) := by
      rw [phase, Phase.verdict?]
    obtain ⟨_, _, _, _, _, _, _, _, _, rest, ended, released, final, _⟩ :=
      (ends_by_closing_both_links run).2.1 _ settled
    rw [phase, Phase.releases] at released
    rw [released] at flushed
    exact ⟨happenings, session, rest, ended, run, recorded, released, Option.some.inj flushed,
      final⟩
  next =>
    have run : ∃ happenings session,
        (fresh jammed).journal [.start refusing, .released, .released] =
          some (happenings, session) ∧
        session.phase = .ended (.failed (.link .notConnected)) := ⟨_, _, rfl, rfl⟩
    obtain ⟨happenings, session, run, phase⟩ := run
    obtain ⟨settled, seen, _⟩ :=
      (ends_by_closing_both_links run).2.2 refusing .notConnected (by simp) rfl
    exact ⟨happenings, session, run, settled, by rw [seen, phase]; rfl⟩

end

end Session

end TpmRelay
