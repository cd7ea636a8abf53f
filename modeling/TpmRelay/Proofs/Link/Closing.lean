import TpmRelay.Proofs.Link.Ledger

set_option autoImplicit false

namespace TpmRelay.Link

def Establishing.dials : Establishing → Prop
  | .absent | .making _ none _ | .storing .. => True
  | .binding .. | .making _ (some _) _ | .abandoning .. => False

structure Dials (link : Link) : Prop where
  role : link.role = .dialing
  gate : ∀ call frontend, .listen call frontend ∉ link.gate
  listeners : link.listeners = none
  helper : link.helper = false
  stage : link.establishing.dials
  closer : link.closer ≠ .waiting

structure Waits (link : Link) : Prop where
  role : link.role = .waiting
  first : ∀ call, link.establishing.owner? = some call →
    ∃ frontend, link.gate.head? = some (.listen call frontend)

section Roles

variable {link link' : Link} {move : Move} {effects : List Effect}

theorem Dials.change (dials : link.Dials) (change : Change link move effects link') :
    link'.Dials := by
  have nextGate : link.nextGate = link.gate := by simp [Link.nextGate, dials.role]
  have stage := dials.stage
  cases change with
  | waits _ _ _ listens =>
    refine { dials with gate := fun call frontend member => ?_ }
    rcases listens dials.role _ member with old | close
    next => exact dials.gate call frontend old
    next => cases close
  | late | takesEvents | resumes | resumesNothing | closesAgain | reads | readEnds
  | lastReadEnds => exact { dials with }
  | closeLocks | passesControl | returns | stops => exact { dials with closer := nofun }
  | lateTurn first | turns first => exact absurd (List.mem_of_mem_head? first) (dials.gate _ _)
  | connects => exact { dials with stage := trivial }
  | binds binding | launches binding => simp [binding, Establishing.dials] at stage
  | abandonsOne abandoning => simp [abandoning, Establishing.dials] at stage
  | abandons _ _ making => simp [making, Establishing.dials] at stage
  | @connectsOne _ listeners _ _ _ making =>
    cases listeners with
    | none => exact { dials with stage := trivial }
    | some _ => simp [making, Establishing.dials] at stage
  | @connectsBoth _ listeners _ _ _ _ _ making =>
    cases listeners with
    | none => exact { dials with listeners := rfl, stage := trivial }
    | some _ => simp [making, Establishing.dials] at stage
  | settles | storesData => exact { dials with gate := nextGate ▸ dials.gate, stage := trivial }
  | storesControl => exact { dials with stage := trivial }
  | closesDialing => exact { dials with listeners := rfl, closer := nofun }
  | closesWaiting _ role => simp [dials.role] at role
  | closesAlone waiting => exact absurd waiting dials.closer
  | terminates => exact { dials with helper := rfl, closer := nofun }

theorem Establishing.absent_of_no_owner {stage : Establishing} (nobody : stage.owner? = none) :
    stage = .absent := by
  cases stage <;> simp_all [Establishing.owner?]

theorem Establishing.ne_absent_of_owner {stage : Establishing} {call : Nat}
    (owner : stage.owner? = some call) : stage ≠ .absent := by
  rintro rfl
  cases owner

theorem Waits.absent (waits : link.Waits) (free : ∀ call frontend,
    link.gate.head? ≠ some (.listen call frontend)) : link.establishing = .absent := by
  refine Establishing.absent_of_no_owner ?_
  refine Option.eq_none_iff_forall_ne_some.mpr fun call owner => ?_
  obtain ⟨frontend, first⟩ := waits.first call owner
  exact free call frontend first

theorem Waits.change (waits : link.Waits) (change : Change link move effects link') :
    link'.Waits := by
  have goesOn {call : Nat} (owner : link.establishing.owner? = some call) :
      ∀ owner, some call = some owner →
        ∃ frontend, link.gate.head? = some (.listen owner frontend) := by
    rintro _ ⟨⟩
    exact waits.first call owner
  cases change with
  | waits _ _ first =>
    refine { waits with first := fun call owner => ?_ }
    obtain ⟨frontend, head⟩ := waits.first call owner
    exact ⟨frontend, first call frontend owner head⟩
  | late | takesEvents | resumes | resumesNothing | closesAgain | reads | readEnds | lastReadEnds
  | closeLocks | passesControl | returns | stops | closesDialing | closesWaiting | terminates =>
    exact { waits with }
  | lateTurn | settles | storesData => exact { waits with first := nofun }
  | connects role => simp [waits.role] at role
  | turns first =>
    refine { waits with first := ?_ }
    rintro _ ⟨⟩
    exact ⟨_, first⟩
  | binds stage | launches stage | connectsOne stage | connectsBoth stage | abandons _ _ stage
  | abandonsOne stage | storesControl stage =>
    exact { waits with first := goesOn (by rw [stage]; rfl) }
  | closesAlone _ first =>
    have absent := waits.absent (by simp [first])
    refine { waits with first := fun call (owner : link.establishing.owner? = some call) => ?_ }
    rw [absent] at owner
    cases owner

end Roles

def Closer.working : Closer → Bool
  | absent | waiting => false
  | locking _ | shutting .. | stopping | returned => true

def Harmless (link : Link) : Prop :=
  link.establishing = .absent ∨ link.role = .dialing ∧ ∃ call made,
    link.establishing = .making call none made

def Cleared (link : Link) : Prop :=
  match link.closer with
  -- Nothing was taken yet.
  | .absent | .waiting => True
  | .locking .control => link.unlocked = []
  | .shutting .control _ | .locking .data => link.unlocked = [] ∧ link.writers.control = none
  | .shutting .data _ => link.unlocked = [] ∧ ∀ channel, link.writers.get channel = none
  | .stopping | .returned =>
    link.unlocked = [] ∧ (∀ channel, link.writers.get channel = none) ∧ link.helper = false

def Clears (link : Link) : Prop :=
  link.closer.working → link.Harmless ∧ link.Cleared

section Clearing

variable {link link' : Link} {move : Move} {effects : List Effect}

theorem Passes.working {channel : Channel} (passes : Passes link channel move effects) :
    link.closer.working := by
  cases passes with
  | unconnected locking => simp [locking, Closer.working]
  | shut shutting | unshut shutting => simp [shutting, Closer.working]

theorem Answers.working (answers : link.Answers) (working : link.closer.working) :
    link.closing = true ∧ link.state = .closed :=
  answers.closing fun absent => by simp [absent, Closer.working] at working

theorem Cleared.unlocked (cleared : link.Cleared) (working : link.closer.working) :
    link.unlocked = [] := by
  unfold Cleared at cleared
  split at cleared
  next closer => simp [closer, Closer.working] at working
  next closer => simp [closer, Closer.working] at working
  next => exact cleared
  all_goals exact cleared.1

def Muted (link : Link) : Prop :=
  link.closer.working → ∀ channel stream, link.readers.get channel ≠ .running stream

theorem Reader.abort_ne_running (reader : Reader) (stream : Stream) :
    reader.abort ≠ .running stream := by
  cases reader <;> simp [Reader.abort]

theorem Muted.released (link : Link) : link.released.Muted := by
  intro _ channel stream
  cases channel with
  | control => exact Reader.abort_ne_running link.readers.control stream
  | data => exact Reader.abort_ne_running link.readers.data stream

theorem Muted.change (muted : link.Muted) (answers : link.Answers)
    (change : Change link move effects link') : link'.Muted := by
  cases change with
  | waits | late | lateTurn | connects | turns | binds | launches | connectsOne | connectsBoth
  | abandons | abandonsOne | settles | storesControl | storesData | takesEvents | resumesNothing
  | reads | closesAgain => exact muted
  | resumes ready =>
    intro working
    simp [(answers.working working).2] at ready
  | readEnds running | lastReadEnds running =>
    exact fun working => absurd running (muted working _ _)
  | closesDialing | closesAlone => exact .released _
  | closesWaiting => exact nofun
  | closeLocks locking => exact fun _ => muted (by simp [locking, Closer.working])
  | passesControl passes | terminates passes | returns passes =>
    exact fun _ => muted passes.working
  | stops stopping => exact fun _ => muted (by simp [stopping, Closer.working])

theorem unlocked_released (link : Link) : link.released.unlocked = [] := by
  simp [released, unlocked, Reader.held_abort]

theorem Harmless.of_stage (harmless : link.Harmless) :
    link.establishing = .absent ∨ ∃ call made, link.establishing = .making call none made := by
  rcases harmless with absent | ⟨_, making⟩
  next => exact .inl absent
  next => exact .inr making

theorem Clears.passesControl (clears : link.Clears) (passes : Passes link .control move effects) :
    link.Harmless ∧ link.unlocked = [] ∧ link.writers.control = none := by
  cases passes with
  | unconnected locking nothing =>
    obtain ⟨harmless, cleared⟩ := clears (by simp [locking, Closer.working])
    simp only [Cleared, locking] at cleared
    exact ⟨harmless, cleared, nothing⟩
  | shut shutting | unshut shutting =>
    obtain ⟨harmless, cleared⟩ := clears (by simp [shutting, Closer.working])
    simp only [Cleared, shutting] at cleared
    exact ⟨harmless, cleared⟩

theorem Clears.passesData (clears : link.Clears) (passes : Passes link .data move effects) :
    link.Harmless ∧ link.unlocked = [] ∧ ∀ channel, link.writers.get channel = none := by
  cases passes with
  | unconnected locking nothing =>
    obtain ⟨harmless, cleared⟩ := clears (by simp [locking, Closer.working])
    simp only [Cleared, locking] at cleared
    refine ⟨harmless, cleared.1, fun channel => ?_⟩
    cases channel with
    | control => exact cleared.2
    | data => exact nothing
  | shut shutting | unshut shutting =>
    obtain ⟨harmless, cleared⟩ := clears (by simp [shutting, Closer.working])
    simp only [Cleared, shutting] at cleared
    exact ⟨harmless, cleared⟩

theorem Clears.change (clears : link.Clears) (answers : link.Answers) (muted : link.Muted)
    (orderly : move = .close → link.closing = false → link.role = .dialing → link.Harmless)
    (alone : link.closer = .waiting → link.gate.head? = some .close → link.establishing = .absent)
    (change : Change link move effects link') : link'.Clears := by
  have harmless (working : link.closer.working) := (clears working).1.of_stage
  have closed (working : link.closer.working) := answers.working working
  -- A call that could bring something new is either not there or sees that the link is closing; the
  -- other cases are those in which the close itself goes on.
  cases change with
  | waits | late | takesEvents | resumesNothing | closesAgain | reads => exact clears
  | lateTurn | settles => exact fun working => ⟨.inl rfl, (clears working).2⟩
  | connects _ idle | turns _ _ idle =>
    intro working
    simp [(closed working).2] at idle
  | connectsOne _ heedless | connectsBoth _ heedless =>
    intro working
    simp [(closed working).1] at heedless
  | binds stage | launches stage | abandons _ _ stage | abandonsOne stage | storesControl stage
  | storesData stage =>
    intro working
    rcases harmless working with absent | ⟨_, _, making⟩
    next => simp [absent] at stage
    next => simp [making] at stage
  | resumes ready =>
    intro working
    simp [(closed working).2] at ready
  | readEnds running | lastReadEnds running =>
    exact fun working => absurd running (muted working _ _)
  | closesDialing unasked role => exact fun _ => ⟨orderly rfl unasked role, unlocked_released _⟩
  | closesWaiting => exact nofun
  | closesAlone waiting first =>
    exact fun _ => ⟨.inl (alone waiting (by simp [first])), unlocked_released _⟩
  | @closeLocks channel _ locking =>
    intro _
    obtain ⟨harmless, cleared⟩ := clears (by simp [locking, Closer.working])
    refine ⟨harmless, ?_⟩
    simp only [Cleared, locking] at cleared ⊢
    cases channel with
    | control => exact ⟨cleared, rfl⟩
    | data =>
      refine ⟨cleared.1, fun channel => ?_⟩
      cases channel with
      | control => exact cleared.2
      | data => rfl
  | passesControl passes =>
    obtain ⟨harmless, unlocked, control⟩ := clears.passesControl passes
    exact fun _ => ⟨harmless, unlocked, control⟩
  | terminates passes =>
    obtain ⟨harmless, unlocked, writers⟩ := clears.passesData passes
    exact fun _ => ⟨harmless, unlocked, writers, rfl⟩
  | returns passes helper =>
    obtain ⟨harmless, unlocked, writers⟩ := clears.passesData passes
    exact fun _ => ⟨harmless, unlocked, writers, helper⟩
  | stops stopping =>
    obtain ⟨harmless, cleared⟩ := clears (by simp [stopping, Closer.working])
    simp only [Cleared, stopping] at cleared
    exact fun _ => ⟨harmless, cleared⟩

end Clearing

section Releasing

variable {link link' : Link} {move : Move} {effects : List Effect}

theorem Clears.held (clears : link.Clears)
    (ending : link.closer = .stopping ∨ link.closer = .returned)
    (absent : link.establishing = .absent) : link.held = [] := by
  have working : link.closer.working := by
    rcases ending with ending | ending <;> simp [ending, Closer.working]
  obtain ⟨_, cleared⟩ := clears working
  obtain ⟨unlocked, writers, helper⟩ : link.unlocked = [] ∧
      (∀ channel, link.writers.get channel = none) ∧ link.helper = false := by
    rcases ending with ending | ending <;> simpa only [Cleared, ending] using cleared
  have control : link.writers.control = none := writers .control
  have data : link.writers.data = none := writers .data
  have closer : link.closer.held = [] := by
    rcases ending with ending | ending <;> simp [ending, Closer.held]
  simp [Link.held, absent, Establishing.held, unlocked, Channels.present, control, data, closer,
    helper]

theorem Change.closing (change : Change link move effects link') (closing : link.closing = true) :
    link'.closing = true := by
  cases change <;> first | exact closing | rfl

def Orderly (link : Link) : Prop :=
  link.Clears ∧ (link.Waits ∨ link.Dials ∧ link.closing = true)

theorem Orderly.change (orderly : link.Orderly) (answers : link.Answers) (muted : link.Muted)
    (change : Change link move effects link') : link'.Orderly := by
  obtain ⟨clears, role⟩ := orderly
  rcases role with waits | ⟨dials, closing⟩
  next =>
    refine ⟨clears.change answers muted (fun _ _ dialing => ?_) (fun _ first => ?_) change,
      .inl (waits.change change)⟩
    next => simp [waits.role] at dialing
    next => exact waits.absent (by simp [first])
  next =>
    refine ⟨clears.change answers muted (fun _ unasked => ?_) (fun waiting => ?_) change,
      .inr ⟨dials.change change, change.closing closing⟩⟩
    next => simp [closing] at unasked
    next => exact absurd waiting dials.closer

theorem Answers.clears (answers : link.Answers) (unasked : link.closing = false) :
    link.Clears := by
  intro working
  simp [(answers.working working).1] at unasked

theorem Dials.harmless (dials : link.Dials)
    (heeds : ∀ call channel made, link.establishing ≠ .storing call channel made) :
    link.Harmless := by
  have stage := dials.stage
  cases current : link.establishing with
  | absent => exact .inl current
  | making call listeners made =>
    cases listeners with
    | none => exact .inr ⟨dials.role, call, made, current⟩
    | some _ => simp [current, Establishing.dials] at stage
  | storing => exact absurd current (heeds _ _ _)
  | _ => simp [current, Establishing.dials] at stage

def Plays (link : Link) : Role → Prop
  | .dialing => link.Dials
  | .waiting => link.Waits

theorem Plays.change {role : Role} (plays : link.Plays role)
    (change : Change link move effects link') : link'.Plays role := by
  cases role with
  | dialing => exact Dials.change plays change
  | waiting => exact Waits.change plays change

theorem plays_fresh (role : Role) : (fresh role).Plays role := by
  cases role with
  | dialing => exact ⟨rfl, nofun, rfl, rfl, trivial, nofun⟩
  | waiting => exact ⟨rfl, nofun⟩

theorem Plays.orderly {role : Role} (plays : link.Plays role) (answers : link.Answers)
    (muted : link.Muted) (unasked : link.closing = false)
    (heeds : role = .dialing → ∀ call channel made, link.establishing ≠ .storing call channel made)
    (change : Change link .close effects link') (asked : link'.closing = true) :
    link'.Orderly := by
  have clears := answers.clears unasked
  cases role with
  | dialing =>
    have dials : link.Dials := plays
    refine ⟨clears.change answers muted (fun _ _ _ => dials.harmless (heeds rfl))
      (fun waiting => absurd waiting dials.closer) change, .inr ⟨dials.change change, asked⟩⟩
  | waiting =>
    have waits : link.Waits := plays
    exact Orderly.change ⟨clears, .inl waits⟩ answers muted change

structure Regular (role : Role) (past : List Happening) (link : Link) : Prop where
  balanced : Balanced past link
  muted : link.Muted
  plays : link.Plays role

theorem Regular.change {role : Role} {past : List Happening} (regular : Regular role past link)
    (change : Change link move effects link') :
    Regular role (past ++ report move effects) link' where
  balanced := regular.balanced.change change
  muted := regular.muted.change regular.balanced.2.1 change
  plays := regular.plays.change change

theorem regular_of_journal {role : Role} {moves : List Move} {past : List Happening}
    (run : (fresh role).journal moves = some (past, link)) : Regular role past link :=
  journal_induction (motive := Regular role) Regular.change
    ⟨balanced_fresh role, nofun, plays_fresh role⟩ run

theorem Change.asked (change : Change link .close effects link') : link'.closing = true := by
  cases change with
  | closesAgain closing => exact closing
  | closesDialing | closesWaiting => rfl
  | waits waits => cases waits
  | abandons settles | settles _ settles => cases settles
  | passesControl passes | terminates passes | returns passes => cases passes

theorem close_releases {role : Role} {early late : List Move} {before after : List Happening}
    {first last : Link} (start : (fresh role).journal early = some (before, first))
    (unasked : first.closing = false)
    (rest : first.journal (.close :: late) = some (after, last))
    (returned : last.closer = .returned) (absent : last.establishing = .absent) :
    last.helper = false ∧ last.listeners = none ∧
    (∀ channel stream, last.readers.get channel ≠ .running stream) ∧
    ((role = .dialing → ∀ call channel made, first.establishing ≠ .storing call channel made) →
      last.writers = ⟨none, none⟩ ∧ last.paused = none ∧
      (acquired (before ++ after)).Perm (relinquished (before ++ after))) := by
  have regular := regular_of_journal start
  -- The close itself is where a link gets into good order; what follows keeps it there.
  obtain ⟨effects, next, later, stepped, run, rfl⟩ := journal_cons rest
  have change := step_change stepped
  have ended : Regular role (before ++ (report .close effects ++ later)) last := by
    rw [← List.append_assoc]
    exact journal_induction (motive := Regular role) Regular.change (regular.change change) run
  have working : last.closer.working := by simp [returned, Closer.working]
  have cleared (heeds : role = .dialing →
      ∀ call channel made, first.establishing ≠ .storing call channel made) : last.Clears := by
    have orderly : next.Orderly := regular.plays.orderly regular.balanced.2.1 regular.muted unasked
      heeds change change.asked
    have kept := journal_induction
      (motive := fun past link => Regular role past link ∧ link.Orderly)
      (fun kept change => ⟨kept.1.change change,
        kept.2.change kept.1.balanced.2.1 kept.1.muted change⟩)
      ⟨regular.change change, orderly⟩ run
    exact kept.2.1
  have shared : last.helper = false ∧ last.listeners = none := by
    cases role with
    | dialing =>
      have dials : last.Dials := ended.plays
      exact ⟨dials.helper, dials.listeners⟩
    | waiting =>
      obtain ⟨_, gone⟩ := cleared nofun working
      simp only [Cleared, returned, Link.unlocked, List.append_eq_nil_iff] at gone
      refine ⟨gone.2.2, ?_⟩
      cases listeners : last.listeners with
      | none => rfl
      | some _ => simp [listeners, Channels.toList] at gone
  refine ⟨shared.1, shared.2, ended.muted working, fun heeds => ?_⟩
  have held := (cleared heeds).held (.inr returned) absent
  have ledger := ended.balanced.2.2
  rw [held, List.append_nil] at ledger
  simp only [Link.held, Link.unlocked, List.append_eq_nil_iff] at held
  refine ⟨Channels.present_eq_nil.mp (List.map_eq_nil_iff.mp held.1.1.2), ?_, ledger⟩
  next =>
    cases paused : last.paused with
    | none => rfl
    | some _ => simp [paused, Channels.toList] at held

end Releasing

def admission : List Move :=
  [.listen 0 "port=2321", .turn, .bound .data ⟨0, .unix "data"⟩ .started,
    .bound .control ⟨1, .unix "control"⟩ .started, .connected .control 0, .connected .data 1,
    .queueUp, .store, .queueUp, .store]

def farewell (result : Except Fault Unit) : List Move :=
  [.closeQueueUp, .closeAlone, .closeQueueUp, .closeLock, .closeShut result, .closeQueueUp,
    .closeLock, .closeShut result, .stopped result]

def admitted : Link where
  role := .waiting
  state := .ready
  writers := ⟨some 0, some 1⟩
  paused := some ⟨0, 1⟩
  listeners := some ⟨⟨1, .unix "control"⟩, ⟨0, .unix "data"⟩⟩
  helper := true

def parted : Link where
  role := .waiting
  state := .closed
  queued := [.closed]
  notified := true
  closing := true
  closer := .returned

theorem admitted_link_releases : ∃ before after,
    (fresh .waiting).journal admission = some (before, admitted) ∧
    admitted.journal (.close :: farewell (.ok ())) = some (after, parted) ∧
    (acquired (before ++ after)).Perm (relinquished (before ++ after)) := by
  have start : (fresh .waiting).journal admission = some (_, admitted) := rfl
  have rest : admitted.journal (.close :: farewell (.ok ())) = some (_, parted) := rfl
  obtain ⟨_, _, _, released⟩ := close_releases start rfl rest rfl rfl
  obtain ⟨_, _, ledger⟩ := released nofun
  exact ⟨_, _, start, rest, ledger⟩

def lateStore : List Move :=
  [.connect 0, .connected .control 0, .connected .data 1, .close, .closeQueueUp, .closeLock,
    .closeQueueUp, .closeLock, .queueUp, .store, .queueUp, .store]

theorem late_store_stays : ∃ past link,
    (fresh .dialing).journal lateStore = some (past, link) ∧
    link.closer = .returned ∧ link.establishing = .absent ∧
    link.writers = ⟨some 0, some 1⟩ ∧ link.paused = some ⟨0, 1⟩ :=
  ⟨_, _, rfl, rfl, rfl, rfl, rfl⟩

end TpmRelay.Link
