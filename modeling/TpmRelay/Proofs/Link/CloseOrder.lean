import Mathlib.Data.List.Basic
import TpmRelay.Proofs.Link.Closing
import TpmRelay.Proofs.Network.SocketFile

set_option autoImplicit false

namespace TpmRelay.Link

/-- The close of the link was told by nobody but its readers. -/
def ToldByReaders (past : List Happening) : Prop :=
  ∀ before after, past = before ++ .did (.queue .closed) :: after →
    ∃ earlier channel, before = earlier ++ [.made (.readEnd channel)]

def Closer.progress : Closer → Nat
  | absent => 0
  | waiting => 1
  | locking .control => 2
  | shutting .control _ => 3
  | locking .data => 4
  | shutting .data _ => 5
  | stopping => 6
  | returned => 7

section Order

variable {link link' : Link} {move : Move} {effects : List Effect}

theorem split_append {α : Type} {first second before after : List α} {value : α}
    (same : first ++ second = before ++ value :: after) :
    (∃ rest, first = before ++ value :: rest ∧ after = rest ++ second) ∨
      ∃ rest, before = first ++ rest ∧ second = rest ++ value :: after := by
  rcases List.append_eq_append_iff.mp same with ⟨rest, whole, tail⟩ | ⟨rest, whole, tail⟩
  next => exact .inr ⟨rest, whole, tail⟩
  next =>
    cases rest with
    | nil => exact .inr ⟨[], by simpa using whole.symm, by simpa using tail.symm⟩
    | cons head rest =>
      obtain ⟨rfl, rfl⟩ := List.cons.inj tail
      exact .inl ⟨rest, whole, rfl⟩

theorem not_mem_of_only {kind : Effect → Bool} {effect : Effect}
    (only : ∀ effect ∈ effects, kind effect) (other : kind effect = false) : effect ∉ effects :=
  fun member => by simp [only effect member] at other

theorem not_terminate_of_telling (link : Link) : .terminate ∉ link.telling := by
  unfold telling
  split <;> simp

theorem Passes.disposes {channel : Channel} (passes : Passes link channel move effects) :
    ∀ effect ∈ effects, effect.disposes := by
  cases passes <;> simp [Effect.disposes]

theorem Passes.progress {channel : Channel} (passes : Passes link channel move effects) :
    link.closer.progress < 6 ∧ (channel = .control → link.closer.progress < 4) := by
  cases channel <;> cases passes with
  | unconnected locking => simp [locking, Closer.progress]
  | shut shutting | unshut shutting => simp [shutting, Closer.progress]

theorem Change.terminate (change : Change link move effects link') :
    .terminate ∉ effects ∨ ∃ earlier, effects = earlier ++ [.terminate] ∧ .terminate ∉ earlier ∧
      link.closer.progress < 6 ∧ link'.closer = .stopping := by
  cases change with
  | waits _ quiet => exact .inl (not_mem_of_only quiet rfl)
  | abandons => exact .inl (not_mem_of_only (disposes_unlistenAll _) rfl)
  | abandonsOne _ _ only | settles _ _ _ only | closesDialing _ _ _ only | closesAlone _ _ _ only =>
    exact .inl (not_mem_of_only only rfl)
  | passesControl passes => exact .inl (not_mem_of_only passes.disposes rfl)
  | lastReadEnds | stops => exact .inl (by simp [not_terminate_of_telling])
  | returns passes =>
    have quiet : Effect.terminate ∉ _ := not_mem_of_only passes.disposes rfl
    exact .inl (by simp [quiet, not_terminate_of_telling])
  | terminates passes =>
    exact .inr ⟨_, rfl, not_mem_of_only passes.disposes rfl, passes.progress.1, rfl⟩
  | _ => exact .inl (by simp)

theorem Change.tells (change : Change link move effects link') :
    .queue .closed ∉ effects ∨ link'.closer = .returned ∨
      ∃ channel rest, move = .readEnd channel ∧ effects = .queue .closed :: rest ∧
        .queue .closed ∉ rest := by
  cases change with
  | waits _ quiet => exact .inl (not_mem_of_only quiet rfl)
  | abandons => exact .inl (not_mem_of_only (disposes_unlistenAll _) rfl)
  | abandonsOne _ _ only | settles _ _ _ only | closesDialing _ _ _ only | closesAlone _ _ _ only =>
    exact .inl (not_mem_of_only only rfl)
  | passesControl passes => exact .inl (not_mem_of_only passes.disposes rfl)
  | terminates passes =>
    have quiet : Effect.queue .closed ∉ _ := not_mem_of_only passes.disposes rfl
    exact .inl (by simp [quiet])
  | @lastReadEnds channel =>
    by_cases notified : link.notified = true
    next => exact .inl (by simp [telling, notified])
    next => exact .inr (.inr ⟨channel, _, rfl, by simp [telling, notified]; rfl, by simp⟩)
  | returns | stops => exact .inr (.inl rfl)
  | _ => exact .inl (by simp)

theorem mem_telling (link : Link) :
    link.notified = true ∨ .queue .closed ∈ link.telling := by
  unfold telling
  split
  next notified => exact .inl notified
  next => exact .inr (by simp)

theorem Change.notifies (change : Change link move effects link')
    (notified : link'.notified = true) : link.notified = true ∨ .queue .closed ∈ effects := by
  cases change with
  | lastReadEnds | stops =>
    rcases link.mem_telling with before | now
    next => exact .inl before
    next => exact .inr (by simp [now])
  | returns =>
    rcases link.mem_telling with before | now
    next => exact .inl before
    next => exact .inr (by simp [now])
  | _ => exact .inl notified

theorem Change.acquires_nothing (change : Change link move effects link')
    (absent : link.establishing = .absent) : acquired (report move effects) = [] := by
  rw [acquired_report]
  cases change with
  | waits waits quiet => simp [acquires_of_waits waits, quiet_of_writes quiet]
  | binds stage | launches stage | connectsOne stage | connectsBoth stage | abandons _ _ stage
  | abandonsOne stage | storesControl stage | storesData stage => simp [absent] at stage
  | settles busy => exact absurd absent busy
  | lastReadEnds => simp [Move.acquires, Effect.acquires, link.telling_conserves.1]
  | stops => simp [Move.acquires, Effect.acquires, link.telling_conserves.1]
  | closesDialing _ _ _ only | closesAlone _ _ _ only =>
    simp [Move.acquires, acquires_of_disposes only]
  | passesControl passes =>
    obtain ⟨move, effects, _⟩ := passes.conserves
    simp [move, effects]
  | terminates passes =>
    obtain ⟨move, effects, _⟩ := passes.conserves
    simp [move, effects, Effect.acquires]
  | returns passes =>
    obtain ⟨move, effects, _⟩ := passes.conserves
    simp [move, effects, Effect.acquires, link.telling_conserves.1]
  | _ => simp [Move.acquires, Effect.acquires]

theorem ToldByReaders.of_append {past : List Happening} (later : List Happening)
    (told : ToldByReaders (past ++ later)) : ToldByReaders past := by
  rintro before after rfl
  exact told before (after ++ later) (by simp)

theorem ToldByReaders.change {past : List Happening} (told : ToldByReaders past)
    (change : Change link move effects link') (open' : link'.closer ≠ .returned) :
    ToldByReaders (past ++ report move effects) := by
  intro before after same
  rcases split_append same with ⟨rest, whole, -⟩ | ⟨rest, rfl, now⟩
  next => exact told before rest whole
  next =>
    have member : .queue .closed ∈ effects := by
      have reported : .did (.queue .closed) ∈ report move effects := by simp [now]
      exact mem_report.mp reported
    rcases change.tells with never | returned | ⟨channel, later, rfl, rfl, once⟩
    next => exact absurd member never
    next => exact absurd returned open'
    next =>
      have same : [Happening.made (.readEnd channel)] ++ .did (.queue .closed) :: later.map .did =
          rest ++ .did (.queue .closed) :: after := now
      obtain ⟨first, _⟩ :=
        (List.append_cons_inj_of_notMem (by simp) (by simpa using once)).mp same
      exact ⟨past, channel, by rw [first]⟩

/-- The helper was told to stop after `before`, and nothing was left to let go of then. -/
structure Terminated (past before after : List Happening) (link : Link) : Prop where
  late : 6 ≤ link.closer.progress
  first : .did .terminate ∉ before
  last : .did .terminate ∉ after
  ledger : (acquired past).Perm (.helper :: relinquished before)
  told : ToldByReaders before

structure Ordered (past : List Happening) (link : Link) : Prop where
  regular : Regular .waiting past link
  clears : link.Clears
  notified : link.notified = true → .did (.queue .closed) ∈ past
  returned : link.closer = .returned → link.notified = true
  readers : link.closer ≠ .returned → ToldByReaders past
  terminated : ∀ before after, past = before ++ .did .terminate :: after →
    Terminated past before after link

theorem ordered_fresh : Ordered [] (fresh .waiting) where
  regular := ⟨balanced_fresh .waiting, nofun, plays_fresh .waiting⟩
  clears := nofun
  notified := nofun
  returned := nofun
  readers _ := by simp [ToldByReaders]
  terminated := by simp

theorem Regular.absent {past : List Happening} (regular : Regular .waiting past link)
    (clears : link.Clears) (working : link.closer.working) : link.establishing = .absent := by
  have waits : link.Waits := regular.plays
  rcases (clears working).1 with absent | ⟨role, _⟩
  next => exact absent
  next => simp [waits.role] at role

theorem Closer.working_of_progress {closer : Closer} (far : 2 ≤ closer.progress) :
    closer.working := by
  cases closer <;> simp_all [Closer.progress, Closer.working]

theorem Change.progress (change : Change link move effects link') (answers : link.Answers) :
    link.closer.progress ≤ link'.closer.progress := by
  cases change with
  | closesDialing unasked | closesWaiting unasked =>
    have absent : link.closer = .absent := by simpa [Answers, unasked] using answers
    simp [absent, Closer.progress]
  | closesAlone waiting => simp [waiting, released, Closer.progress]
  | @closeLocks channel _ locking => cases channel <;> simp [locking, Closer.progress]
  | passesControl passes => exact Nat.le_of_lt (passes.progress.2 rfl)
  | terminates passes => exact Nat.le_of_lt passes.progress.1
  | returns passes => exact Nat.le_of_lt (Nat.lt_succ_of_lt passes.progress.1)
  | stops stopping => simp [stopping, Closer.progress]
  | _ => exact Nat.le_refl _

theorem Change.open (change : Change link move effects link') (answers : link.Answers)
    (more : link'.closer ≠ .returned) : link.closer ≠ .returned := by
  intro returned
  have progress := change.progress answers
  rw [returned] at progress
  cases closer : link'.closer with
  | returned => exact more closer
  | locking channel | shutting channel =>
    cases channel <;> simp [closer, Closer.progress] at progress
  | _ => simp [closer, Closer.progress] at progress

theorem Change.returned (change : Change link move effects link')
    (before : link.closer = .returned → link.notified = true)
    (after : link'.closer = .returned) : link'.notified = true := by
  cases change with
  | lastReadEnds | returns | stops => rfl
  | closesDialing | closesWaiting | closesAlone | closeLocks | passesControl | terminates =>
    cases after
  | _ => exact before after

theorem Terminated.change {past before after : List Happening}
    (terminated : Terminated past before after link) (regular : Regular .waiting past link)
    (clears : link.Clears) (change : Change link move effects link') :
    Terminated (past ++ report move effects) before (after ++ report move effects) link' := by
  obtain ⟨late, first, last, ledger, told⟩ := terminated
  have working := Closer.working_of_progress (Nat.le_trans (by decide) late)
  have nothing := change.acquires_nothing (regular.absent clears working)
  have never : .terminate ∉ effects := by
    rcases change.terminate with never | ⟨_, _, _, early, _⟩
    next => exact never
    next => omega
  refine ⟨Nat.le_trans late (change.progress regular.balanced.2.1), first, ?_, ?_, told⟩
  next => simp [mem_report, last, never]
  next => rwa [acquired_append, nothing, List.append_nil]

theorem Ordered.terminates {past : List Happening} (ordered : Ordered past link)
    (change : Change link move (effects ++ [.terminate]) link') (once : .terminate ∉ effects)
    (early : link.closer.progress < 6) (stopping : link'.closer = .stopping)
    (clears : link'.Clears) :
    Terminated (past ++ report move (effects ++ [.terminate])) (past ++ report move effects) []
      link' := by
  have regular := ordered.regular.change change
  have working : link'.closer.working := by simp [stopping, Closer.working]
  have fresh : .did .terminate ∉ past := by
    intro member
    obtain ⟨before, after, whole⟩ := List.append_of_mem member
    have late := (ordered.terminated before after whole).late
    omega
  have split : past ++ report move (effects ++ [.terminate]) =
      past ++ report move effects ++ [.did .terminate] := by simp [report]
  refine ⟨by simp [stopping, Closer.progress], by simp [fresh, mem_report, once], by simp, ?_, ?_⟩
  next =>
    -- What is held is nothing, so all but the helper was let go of before.
    have ledger := regular.balanced.2.2
    have last : relinquished (past ++ report move (effects ++ [.terminate])) =
        relinquished (past ++ report move effects) ++ [.helper] := by
      rw [split, relinquished_append]
      rfl
    have held := clears.held (.inl stopping) (regular.absent clears working)
    rw [held, List.append_nil, last] at ledger
    exact ledger.trans List.perm_append_comm
  next =>
    have open' : link'.closer ≠ .returned := by simp [stopping]
    have told := (ordered.readers (change.open ordered.regular.balanced.2.1 open')).change change
      open'
    rw [split] at told
    exact .of_append _ told

theorem Ordered.change {past : List Happening} (ordered : Ordered past link)
    (change : Change link move effects link') : Ordered (past ++ report move effects) link' := by
  have regular := ordered.regular
  have answers := regular.balanced.2.1
  have waits : link.Waits := regular.plays
  have clears : link'.Clears :=
    (Orderly.change ⟨ordered.clears, .inl waits⟩ answers regular.muted change).1
  refine ⟨regular.change change, clears, fun told => ?_, change.returned ordered.returned,
    fun more => ?_, fun before after same => ?_⟩
  next =>
    rcases change.notifies told with before | now
    next => exact List.mem_append_left _ (ordered.notified before)
    next => exact List.mem_append_right _ (mem_report.mpr now)
  next => exact (ordered.readers (change.open answers more)).change change more
  next =>
    rcases split_append same with ⟨rest, whole, rfl⟩ | ⟨rest, rfl, now⟩
    next => exact (ordered.terminated before rest whole).change regular ordered.clears change
    next =>
      have reported : .did .terminate ∈ report move effects := by simp [now]
      rcases change.terminate with never | ⟨earlier, rfl, once, early, stopping⟩
      next => exact absurd (mem_report.mp reported) never
      next =>
        have same : report move earlier ++ Happening.did .terminate :: [] =
            rest ++ .did .terminate :: after := by simpa [report] using now
        obtain ⟨rfl, _, rfl⟩ :=
          (List.append_cons_inj_of_notMem (mt mem_report.mp once) (by simp)).mp same
        exact ordered.terminates change once early stopping clears

theorem ordered_of_journal {moves : List Move} {past : List Happening}
    (run : (fresh .waiting).journal moves = some (past, link)) : Ordered past link :=
  journal_induction Ordered.change ordered_fresh run

theorem closing_of_journal {first : Link} {moves : List Move} {past : List Happening}
    (run : first.journal moves = some (past, link)) (asked : .close ∈ moves) :
    link.closing = true := by
  have keeps {past : List Happening} {link : Link} {move : Move} {effects : List Effect}
      {link' : Link} (before : .made .close ∈ past → link.closing = true)
      (change : Change link move effects link')
      (member : .made .close ∈ past ++ report move effects) : link'.closing = true := by
    rcases List.mem_append.mp member with earlier | now
    next => exact change.closing (before earlier)
    next =>
      obtain rfl : .close = move := by simpa [report] using now
      exact change.asked
  have start : .made .close ∈ ([] : List Happening) → first.closing = true := by simp
  exact journal_induction (motive := fun past link => .made .close ∈ past → link.closing = true)
    keeps start run (made_of_journal run asked)

end Order

section Failures

/-- The same move, but nothing fails. -/
def Move.smooth : Move → Move
  | abandon _ => abandon (.ok ())
  | closeShut _ => closeShut (.ok ())
  | stopped _ => stopped (.ok ())
  | other => other

def Effect.deed : Effect → List Effect
  | shut _ => []
  | effect => [effect]

def Happening.deed : Happening → List Effect
  | made _ => []
  | did effect => effect.deed

def deeds (past : List Happening) : List Effect :=
  past.flatMap Happening.deed

theorem deeds_append (first second : List Happening) :
    deeds (first ++ second) = deeds first ++ deeds second :=
  List.flatMap_append

theorem deeds_report (move : Move) (effects : List Effect) :
    deeds (report move effects) = effects.flatMap Effect.deed := by
  simp [deeds, report, List.flatMap_map, Happening.deed]

theorem abandon_smooth (link : Link) (call : Nat) (error : Error) (result : Except Fault Unit)
    (left : List Stream) :
    ∃ smooth, link.abandon call error (.ok ()) left =
        (smooth, (link.abandon call error result left).2) ∧
      smooth.flatMap Effect.deed =
        (link.abandon call error result left).1.flatMap Effect.deed := by
  rcases left with _ | ⟨stream, _ | ⟨next, left⟩⟩ <;> cases result <;> exact ⟨_, rfl, rfl⟩

theorem closeShut_smooth (link : Link) (channel : Channel) (stream : Stream)
    (result : Except Fault Unit) :
    ∃ smooth, link.closeShut channel stream (.ok ()) =
        (smooth, (link.closeShut channel stream result).2) ∧
      smooth.flatMap Effect.deed =
        (link.closeShut channel stream result).1.flatMap Effect.deed := by
  cases result <;> exact ⟨_, rfl, rfl⟩

theorem step_smooth {link link' : Link} {move : Move} {effects : List Effect}
    (stepped : link.step move = some (effects, link')) :
    ∃ smooth, link.step move.smooth = some (smooth, link') ∧
      deeds (report move.smooth smooth) = deeds (report move effects) := by
  simp only [deeds_report]
  cases move with
  | abandon result =>
    simp only [step, stepEstablishing] at stepped
    split at stepped
    next call error left abandoning =>
      obtain ⟨smooth, done, same⟩ := link.abandon_smooth call error result left
      rw [Option.some.inj stepped] at done same
      refine ⟨smooth, ?_, same⟩
      simp only [Move.smooth, step, stepEstablishing, abandoning, done]
    next => cases stepped
  | closeShut result =>
    simp only [step, stepClosing] at stepped
    split at stepped
    next channel stream shutting =>
      obtain ⟨smooth, done, same⟩ := link.closeShut_smooth channel stream result
      rw [Option.some.inj stepped] at done same
      refine ⟨smooth, ?_, same⟩
      simp only [Move.smooth, step, stepClosing, shutting, done]
    next => cases stepped
  | _ => exact ⟨effects, stepped, rfl⟩

theorem journal_smooth {link last : Link} {moves : List Move} {past : List Happening}
    (run : link.journal moves = some (past, last)) :
    ∃ smooth, link.journal (moves.map Move.smooth) = some (smooth, last) ∧
      deeds smooth = deeds past := by
  induction moves generalizing link past with
  | nil =>
    obtain ⟨rfl, rfl⟩ : [] = past ∧ link = last := by simpa [journal] using run
    exact ⟨[], rfl, rfl⟩
  | cons move moves ih =>
    obtain ⟨effects, next, later, stepped, rest, rfl⟩ := journal_cons run
    obtain ⟨first, done, same⟩ := step_smooth stepped
    obtain ⟨second, run, same'⟩ := ih rest
    refine ⟨_, journal_step done run, ?_⟩
    rw [deeds_append, deeds_append, same, same']

end Failures

theorem mem_acquired {past : List Happening} {happening : Happening} {resource : Resource}
    (member : happening ∈ past) (acquires : resource ∈ happening.acquires) :
    resource ∈ acquired past :=
  List.mem_flatMap.mpr ⟨happening, member, acquires⟩

theorem mem_relinquished {past : List Happening} {resource : Resource}
    (member : resource ∈ relinquished past) :
    ∃ effect, .did effect ∈ past ∧ resource ∈ effect.releases := by
  obtain ⟨happening, there, releases⟩ := List.mem_flatMap.mp member
  cases happening with
  | made => cases releases
  | did effect => exact ⟨effect, there, releases⟩

theorem drop_of_releases {effect : Effect} {stream : Stream} {half : Half}
    (releases : .half stream half ∈ effect.releases) : effect = .drop stream half := by
  cases effect <;> simp_all [Effect.releases]

theorem unlisten_of_releases {effect : Effect} {listener : Listener}
    (releases : .listener listener ∈ effect.releases) : effect = .unlisten listener := by
  cases effect <;> simp_all [Effect.releases]

theorem terminate_of_releases {effect : Effect} (releases : .helper ∈ effect.releases) :
    effect = .terminate := by
  cases effect <;> simp_all [Effect.releases]

theorem waiting_link_closes_in_order {moves : List Move} {past : List Happening} {link : Link}
    (run : (fresh .waiting).journal moves = some (past, link)) :
    -- A helper that was started is told to stop,
    ((∃ task, .did (.launch task (.ok ())) ∈ past) → link.closer = .returned →
      .did .terminate ∈ past) ∧
    (∀ before after, past = before ++ .did .terminate :: after →
      -- once,
      .did .terminate ∉ before ∧ .did .terminate ∉ after ∧
      -- when all listeners and all connections were let go of,
      (∀ channel listener launching, .made (.bound channel listener launching) ∈ past →
        .did (.unlisten listener) ∈ before) ∧
      (∀ channel stream half, .made (.connected channel stream) ∈ past →
        .did (.drop stream half) ∈ before) ∧
      -- and then the close is told, if no reader has told it.
      ToldByReaders before ∧
      (link.closer = .returned → .did (.queue .closed) ∉ before →
        .did (.queue .closed) ∈ after)) ∧
    -- Whoever bound a socket may remove it, and letting go of its listener does.
    (∀ (network after : Network) (endpoint bound : Endpoint) (spared : List UInt16) (number : Nat),
      network.bind endpoint spared = (.ok (number, bound), after) → bound.transport = .unix →
      after.files.Removable bound.address) ∧
    (∀ (network : Network) (listener : Listener), listener.endpoint.transport = .unix →
      network.files.Removable listener.endpoint.address →
      ∀ node, (network.unlisten listener.number listener.endpoint).files.find?
        listener.endpoint.address = some node → node.kind = .directory) ∧
    -- If nothing had failed, no more would have been done.
    (∃ smooth, (fresh .waiting).journal (moves.map Move.smooth) = some (smooth, link) ∧
      deeds smooth = deeds past) ∧
    -- Another close has no effect.
    (.close ∈ moves → link.step .close = some ([.closed], link)) := by
  have ordered := ordered_of_journal run
  refine ⟨?_, fun before after same => ?_, fun _ _ _ _ _ _ done => Network.removable_of_bind done,
    ?_, journal_smooth run, fun asked => ?_⟩
  next =>
    rintro ⟨task, launched⟩ returned
    have ledger := ordered.regular.balanced.2.2
    have working : link.closer.working := by simp [returned, Closer.working]
    rw [ordered.clears.held (.inr returned) (ordered.regular.absent ordered.clears working),
      List.append_nil] at ledger
    have member : Resource.helper ∈ acquired past :=
      mem_acquired launched (by simp [Happening.acquires, Effect.acquires])
    obtain ⟨effect, there, releases⟩ := mem_relinquished (ledger.mem_iff.mp member)
    rwa [terminate_of_releases releases] at there
  next =>
    obtain ⟨_, first, last, ledger, told⟩ := ordered.terminated before after same
    have released (resource : Resource) (other : resource ≠ .helper)
        (member : resource ∈ acquired past) :
        ∃ effect, .did effect ∈ before ∧ resource ∈ effect.releases :=
      mem_relinquished ((List.mem_cons.mp (ledger.mem_iff.mp member)).resolve_left other)
    refine ⟨first, last, fun channel listener launching bound => ?_,
      fun channel stream half connected => ?_, told, fun returned never => ?_⟩
    next =>
      obtain ⟨effect, there, releases⟩ := released (.listener listener) (by simp)
        (mem_acquired bound (by simp [Happening.acquires, Move.acquires]))
      rwa [unlisten_of_releases releases] at there
    next =>
      have acquires : .half stream half ∈ halves stream := by cases half <;> simp [halves]
      obtain ⟨effect, there, releases⟩ := released (.half stream half) (by simp)
        (mem_acquired connected acquires)
      rwa [drop_of_releases releases] at there
    next =>
      have member := ordered.notified (ordered.returned returned)
      simpa [same, never] using member
  next =>
    exact fun network listener unix removable node found =>
      network.unlisten_leaves_no_socket listener.number unix removable found
  next =>
    have closing := closing_of_journal run asked
    simp [step, stepClosing, close, closing]

theorem failing_farewell_terminates : ∃ past,
    (fresh .waiting).journal (admission ++ .close :: farewell (.error ⟨.brokenPipe, none⟩)) =
      some (past, parted) ∧
    .did .terminate ∈ past ∧ parted.step .close = some ([.closed], parted) := by
  obtain ⟨past, run, launched⟩ : ∃ past, (fresh .waiting).journal
      (admission ++ .close :: farewell (.error ⟨.brokenPipe, none⟩)) = some (past, parted) ∧
      past[4]? = some (.did (.launch ⟨.unix "control", .unix "data", "port=2321"⟩ (.ok ()))) :=
    ⟨_, rfl, rfl⟩
  obtain ⟨terminated, _, _, _, _, again⟩ := waiting_link_closes_in_order run
  have helper := terminated ⟨_, List.mem_of_getElem? launched⟩ rfl
  exact ⟨past, run, helper, again (by simp)⟩

end TpmRelay.Link
