import TpmRelay.Proofs.Link.Change

set_option autoImplicit false

namespace TpmRelay.Link

inductive Happening where
  | made (move : Move)
  | did (effect : Effect)

def Happening.acquires : Happening → List Resource
  | made move => move.acquires
  | did effect => effect.acquires

def Happening.releases : Happening → List Resource
  | made _ => []
  | did effect => effect.releases

def report (move : Move) (effects : List Effect) : List Happening :=
  .made move :: effects.map .did

theorem mem_report {move : Move} {effects : List Effect} {effect : Effect} :
    .did effect ∈ report move effects ↔ effect ∈ effects := by
  simp [report]

def journal (link : Link) : List Move → Option (List Happening × Link)
  | [] => some ([], link)
  | move :: moves => do
    let (effects, next) ← link.step move
    let (later, last) ← next.journal moves
    return (report move effects ++ later, last)

def fresh (role : Role) : Link :=
  { role }

theorem journal_step {link next last : Link} {move : Move} {moves : List Move}
    {effects : List Effect} {later : List Happening}
    (stepped : link.step move = some (effects, next))
    (rest : next.journal moves = some (later, last)) :
    link.journal (move :: moves) = some (report move effects ++ later, last) := by
  simp [journal, stepped, rest]

theorem journal_cons {link last : Link} {move : Move} {moves : List Move}
    {happenings : List Happening}
    (run : link.journal (move :: moves) = some (happenings, last)) :
    ∃ effects next later, link.step move = some (effects, next) ∧
      next.journal moves = some (later, last) ∧ happenings = report move effects ++ later := by
  cases stepped : link.step move with
  | none => simp [journal, stepped] at run
  | some progress =>
    obtain ⟨effects, next⟩ := progress
    cases rest : next.journal moves with
    | none => simp [journal, stepped, rest] at run
    | some ended =>
      obtain ⟨later, final⟩ := ended
      obtain ⟨rfl, rfl⟩ : report move effects ++ later = happenings ∧ final = last := by
        simpa [journal, stepped, rest] using run
      exact ⟨effects, next, later, rfl, rest, rfl⟩

theorem made_of_journal {link last : Link} {move : Move} {moves : List Move}
    {happenings : List Happening} (run : link.journal moves = some (happenings, last))
    (member : move ∈ moves) : .made move ∈ happenings := by
  induction moves generalizing link happenings with
  | nil => cases member
  | cons first moves ih =>
    obtain ⟨effects, next, later, _, rest, rfl⟩ := journal_cons run
    rcases List.mem_cons.mp member with rfl | more
    next => exact .head _
    next => exact List.mem_append_right _ (ih rest more)

theorem journal_induction_step {motive : List Happening → Link → Prop}
    (keeps : ∀ {past link move effects next}, motive past link →
      link.step move = some (effects, next) → motive (past ++ report move effects) next)
    {past happenings : List Happening} {link last : Link} {moves : List Move}
    (start : motive past link) (run : link.journal moves = some (happenings, last)) :
    motive (past ++ happenings) last := by
  -- For any past: what the first move leads to is the past of the others.
  induction moves generalizing past link happenings with
  | nil =>
    obtain ⟨rfl, rfl⟩ : [] = happenings ∧ link = last := by simpa [journal] using run
    simpa using start
  | cons move moves ih =>
    obtain ⟨effects, next, later, stepped, rest, rfl⟩ := journal_cons run
    rw [← List.append_assoc]
    exact ih (keeps start stepped) rest

theorem journal_induction {motive : List Happening → Link → Prop}
    (keeps : ∀ {past link move effects link'}, motive past link → Change link move effects link' →
      motive (past ++ report move effects) link')
    {past happenings : List Happening} {link last : Link} {moves : List Move}
    (start : motive past link) (run : link.journal moves = some (happenings, last)) :
    motive (past ++ happenings) last :=
  journal_induction_step (fun kept stepped => keeps kept (step_change stepped)) start run

def Bare (link : Link) : Prop :=
  (∀ channel, link.writers.get channel = none) ∧ link.paused = none ∧
    link.readers = ⟨.absent, .absent⟩

def Roomy (link : Link) : Establishing → Prop
  | .absent =>
    (link.state = .idle → link.Bare ∧ link.listeners = none ∧ link.helper = false) ∧
      (link.paused ≠ none → link.readers = ⟨.absent, .absent⟩)
  | .binding .. =>
    link.state ≠ .idle ∧ link.Bare ∧ link.listeners = none ∧ link.helper = false
  | .making .. => link.state ≠ .idle ∧ link.Bare ∧ link.listeners = none
  | .abandoning .. | .storing _ .control _ => link.state ≠ .idle ∧ link.Bare
  | .storing _ .data _ =>
    link.state ≠ .idle ∧ link.writers.data = none ∧ link.paused = none ∧
      link.readers = ⟨.absent, .absent⟩

def Sound (link : Link) : Prop :=
  link.Roomy link.establishing

structure Lessens (link link' : Link) : Prop where
  writers : ∀ channel, link.writers.get channel = none → link'.writers.get channel = none
  paused : link'.paused = link.paused ∨ link'.paused = none
  readers : link.readers = ⟨.absent, .absent⟩ → link'.readers = ⟨.absent, .absent⟩
  listeners : link.listeners = none → link'.listeners = none
  helper : link.helper = false → link'.helper = false
  state : link.state ≠ .idle → link'.state ≠ .idle

section Soundness

variable {link link' : Link} {stage : Establishing}

theorem Lessens.bare (lessens : Lessens link link') (bare : link.Bare) : link'.Bare := by
  obtain ⟨writers, paused, readers⟩ := bare
  refine ⟨fun channel => lessens.writers channel (writers channel), ?_, lessens.readers readers⟩
  rcases lessens.paused with same | gone
  next => rw [same, paused]
  next => exact gone

theorem Lessens.roomy (lessens : Lessens link link') (roomy : link.Roomy stage) :
    link'.Roomy stage := by
  cases stage with
  | absent =>
    refine ⟨fun idle => ?_, fun paused => lessens.readers (roomy.2 ?_)⟩
    next =>
      have before : link.state = .idle :=
        Classical.byContradiction fun busy => lessens.state busy idle
      obtain ⟨bare, listeners, helper⟩ := roomy.1 before
      exact ⟨lessens.bare bare, lessens.listeners listeners, lessens.helper helper⟩
    next =>
      rcases lessens.paused with same | gone
      next => rwa [same] at paused
      next => exact absurd gone paused
  | binding =>
    obtain ⟨state, bare, listeners, helper⟩ := roomy
    exact ⟨lessens.state state, lessens.bare bare, lessens.listeners listeners,
      lessens.helper helper⟩
  | making =>
    obtain ⟨state, bare, listeners⟩ := roomy
    exact ⟨lessens.state state, lessens.bare bare, lessens.listeners listeners⟩
  | abandoning => exact ⟨lessens.state roomy.1, lessens.bare roomy.2⟩
  | storing call channel made =>
    cases channel with
    | control => exact ⟨lessens.state roomy.1, lessens.bare roomy.2⟩
    | data =>
      obtain ⟨state, data, paused, readers⟩ := roomy
      refine ⟨lessens.state state, lessens.writers .data data, ?_, lessens.readers readers⟩
      rcases lessens.paused with same | gone
      next => rw [same, paused]
      next => exact gone

theorem Sound.roomy (sound : link.Sound) (now : link.establishing = stage) : link.Roomy stage :=
  now ▸ sound

theorem Sound.of_roomy (now : link.establishing = stage) (roomy : link.Roomy stage) : link.Sound :=
  show link.Roomy link.establishing from now ▸ roomy

theorem Sound.idle (sound : link.Sound) (idle : link.state = .idle) :
    link.establishing = .absent ∧ link.Bare ∧ link.listeners = none ∧ link.helper = false := by
  cases stage : link.establishing with
  | absent => exact ⟨rfl, (sound.roomy stage).1 idle⟩
  | storing call channel made =>
    have roomy := sound.roomy stage
    cases channel <;> exact absurd idle roomy.1
  | _ => exact absurd idle (sound.roomy stage).1

theorem Sound.busy (sound : link.Sound) (busy : link.establishing ≠ .absent) :
    link.state ≠ .idle ∧ link.paused = none ∧ link.readers = ⟨.absent, .absent⟩ := by
  cases stage : link.establishing with
  | absent => exact absurd stage busy
  | binding | making =>
    obtain ⟨state, bare, _⟩ := sound.roomy stage
    exact ⟨state, bare.2⟩
  | abandoning =>
    obtain ⟨state, bare⟩ := sound.roomy stage
    exact ⟨state, bare.2⟩
  | storing call channel made =>
    have roomy := sound.roomy stage
    cases channel with
    | control => exact ⟨roomy.1, roomy.2.2⟩
    | data => exact ⟨roomy.1, roomy.2.2⟩

theorem Sound.paused (sound : link.Sound) (paused : link.paused ≠ none) :
    link.establishing = .absent ∧ link.readers = ⟨.absent, .absent⟩ := by
  have absent : link.establishing = .absent :=
    Classical.byContradiction fun busy => paused (sound.busy busy).2.1
  exact ⟨absent, (sound.roomy absent).2 paused⟩

theorem Sound.running (sound : link.Sound) {channel : Channel} {stream : Stream}
    (running : link.readers.get channel = .running stream) :
    link.establishing = .absent ∧ link.paused = none ∧ link.state ≠ .idle := by
  have present : link.readers ≠ ⟨.absent, .absent⟩ := fun absent => by
    rw [absent] at running
    cases channel <;> simp [Channels.get] at running
  have absent : link.establishing = .absent :=
    Classical.byContradiction fun busy => present (sound.busy busy).2.2
  obtain ⟨bare, unread⟩ := sound.roomy absent
  exact ⟨absent, Classical.byContradiction fun paused => present (unread paused),
    fun idle => present (bare idle).1.2.2⟩

theorem Sound.lessen (sound : link.Sound) (lessens : Lessens link link')
    (same : link'.establishing = link.establishing) : link'.Sound := by
  exact .of_roomy same (lessens.roomy sound)

theorem Lessens.released (lessens : Lessens link link') : Lessens link link'.released where
  writers := lessens.writers
  paused := .inr rfl
  readers absent := by simp [Link.released, lessens.readers absent, Reader.abort]
  listeners _ := rfl
  helper := lessens.helper
  state := lessens.state

theorem Lessens.refl (link : Link) : Lessens link link :=
  ⟨fun _ => id, .inl rfl, id, id, id, id⟩

theorem State.fail_ne_idle {state : State} (busy : state ≠ .idle) : state.fail ≠ .idle := by
  cases state <;> simp_all [State.fail]

theorem State.markMade_ne_idle {state : State} (busy : state ≠ .idle) (channel : Channel) :
    state.markMade channel ≠ .idle := by
  cases state <;> simp_all [State.markMade]

theorem Sound.settle (sound : link.Sound) (busy : link.establishing ≠ .absent)
    (state : link'.state ≠ .idle) (paused : link'.paused = link.paused)
    (absent : link'.establishing = .absent) : link'.Sound := by
  exact .of_roomy absent ⟨fun idle => absurd idle state,
    fun some' => absurd (paused.trans (sound.busy busy).2.1) some'⟩

theorem Sound.change {move : Move} {effects : List Effect} (sound : link.Sound)
    (change : Change link move effects link') : link'.Sound := by
  cases change with
  | waits | late | takesEvents | resumesNothing | closesAgain | reads | passesControl | returns
  | stops => exact sound
  | lateTurn _ absent =>
    exact sound.roomy absent
  | connects _ idle =>
    obtain ⟨_, bare, listeners, _⟩ := sound.idle idle
    exact ⟨nofun, bare, listeners⟩
  | turns _ _ idle =>
    obtain ⟨_, bare, listeners, helper⟩ := sound.idle idle
    exact ⟨nofun, bare, listeners, helper⟩
  | binds binding =>
    exact sound.roomy binding
  | launches binding =>
    obtain ⟨state, bare, listeners, _⟩ := sound.roomy binding
    exact ⟨state, bare, listeners⟩
  | connectsOne making =>
    obtain ⟨state, bare, listeners⟩ := sound.roomy making
    exact ⟨State.markMade_ne_idle state _, bare, listeners⟩
  | connectsBoth making =>
    obtain ⟨state, bare, _⟩ := sound.roomy making
    exact ⟨State.markMade_ne_idle state _, bare⟩
  | abandons _ _ making =>
    obtain ⟨state, bare, _⟩ := sound.roomy making
    exact ⟨State.fail_ne_idle state, bare⟩
  | abandonsOne abandoning =>
    exact sound.roomy abandoning
  | settles busy _ _ _ failed =>
    refine sound.settle busy ?_ rfl rfl
    have state := (sound.busy busy).1
    rcases failed with rfl | rfl
    next => exact State.fail_ne_idle state
    next => exact state
  | storesControl storing =>
    obtain ⟨state, bare⟩ := sound.roomy storing
    exact ⟨state, bare.1 .data, bare.2⟩
  | storesData storing ready =>
    obtain ⟨state, _, readers⟩ := sound.busy (by simp [storing])
    refine ⟨fun idle => ?_, fun _ => readers⟩
    rcases ready with rfl | ⟨_, rfl⟩
    next => exact absurd idle state
    next => cases idle
  | resumes ready paused =>
    have absent : link.establishing = .absent := Classical.byContradiction fun busy => by
      simp [(sound.busy busy).2.1] at paused
    exact .of_roomy absent
      ⟨fun idle => by simp [ready] at idle, fun some' => absurd rfl some'⟩
  | readEnds running =>
    obtain ⟨absent, paused, state⟩ := sound.running running
    exact .of_roomy absent ⟨fun idle => absurd idle state, fun some' => absurd paused some'⟩
  | lastReadEnds running =>
    obtain ⟨absent, paused, _⟩ := sound.running running
    exact .of_roomy absent ⟨nofun, fun some' => absurd paused some'⟩
  | closesDialing =>
    have closed : Lessens link { link with closing := true, state := .closed } :=
      { Lessens.refl link with state := fun _ => nofun }
    exact sound.lessen closed.released rfl
  | closesWaiting =>
    have closed : Lessens link { link with
        closing := true, state := .closed, closer := .waiting } :=
      { Lessens.refl link with state := fun _ => nofun }
    exact sound.lessen closed rfl
  | @closesAlone _ gate =>
    have queued : Lessens link { link with gate } := { Lessens.refl link with }
    exact sound.lessen queued.released rfl
  | closeLocks =>
    refine sound.lessen { Lessens.refl link with writers := fun other missing => ?_ } rfl
    simp only [Channels.get_set]
    split
    next => rfl
    next => exact missing
  | terminates =>
    exact sound.lessen { Lessens.refl link with helper := fun _ => rfl } rfl

theorem sound_fresh (role : Role) : (fresh role).Sound :=
  ⟨fun _ => ⟨⟨fun channel => by cases channel <;> rfl, rfl, rfl⟩, rfl, rfl⟩, fun _ => rfl⟩

def Answers (link : Link) : Prop :=
  if link.closing then link.closer ≠ .absent ∧ link.state = .closed else link.closer = .absent

theorem Answers.closing (answers : link.Answers) (busy : link.closer ≠ .absent) :
    link.closing = true ∧ link.state = .closed := by
  unfold Answers at answers
  split at answers
  next closing => exact ⟨closing, answers.2⟩
  next => exact absurd answers busy

theorem Passes.busy {channel : Channel} {move : Move} {effects : List Effect}
    (passes : Passes link channel move effects) : link.closer ≠ .absent := by
  cases passes with
  | unconnected locking => simp [locking]
  | shut shutting | unshut shutting => simp [shutting]

theorem Answers.of_closed (closing : link.closing = true) (busy : link.closer ≠ .absent)
    (closed : link.state = .closed) : link.Answers := by
  simp [Answers, closing, busy, closed]

theorem Change.final {move : Move} {effects : List Effect}
    (change : Change link move effects link') (closed : link.state = .closed) :
    link'.state = .closed := by
  cases change with
  | connects _ idle | turns _ _ idle => simp [closed] at idle
  | connectsOne | connectsBoth => simp [closed, State.markMade]
  | abandons => simp [closed, State.fail]
  | settles _ _ _ _ failed =>
    rcases failed with rfl | rfl
    next => simp [closed, State.fail]
    next => exact closed
  | storesData _ ready =>
    rcases ready with rfl | ⟨⟨_, establishing⟩, _⟩
    next => exact closed
    next => simp [closed] at establishing
  | lastReadEnds | closesDialing | closesWaiting => rfl
  | _ => exact closed

theorem Answers.restate (answers : link.Answers) (closing : link'.closing = link.closing)
    (closer : link'.closer = link.closer)
    (state : link.state = .closed → link'.state = .closed) : link'.Answers := by
  unfold Answers at answers ⊢
  rw [closing, closer]
  split
  next asked =>
    rw [if_pos asked] at answers
    exact ⟨answers.1, state answers.2⟩
  next asked => rwa [if_neg asked] at answers

theorem Answers.change {move : Move} {effects : List Effect} (answers : link.Answers)
    (change : Change link move effects link') : link'.Answers := by
  have final := change.final
  cases change with
  | closesDialing | closesWaiting => exact .of_closed rfl nofun rfl
  | closesAlone waiting =>
    obtain ⟨closing, closed⟩ := answers.closing (by simp [waiting])
    exact .of_closed closing nofun closed
  | closeLocks locking =>
    obtain ⟨closing, closed⟩ := answers.closing (by simp [locking])
    exact .of_closed closing nofun closed
  | passesControl passes | terminates passes | returns passes =>
    obtain ⟨closing, closed⟩ := answers.closing passes.busy
    exact .of_closed closing nofun closed
  | stops stopping =>
    obtain ⟨closing, closed⟩ := answers.closing (by simp [stopping])
    exact .of_closed closing nofun closed
  | _ => exact answers.restate rfl rfl final

end Soundness

section Conservation

variable {link link' : Link} {move : Move} {effects : List Effect}

def acquired (past : List Happening) : List Resource :=
  past.flatMap Happening.acquires

def relinquished (past : List Happening) : List Resource :=
  past.flatMap Happening.releases

@[simp] theorem acquired_append (first second : List Happening) :
    acquired (first ++ second) = acquired first ++ acquired second :=
  List.flatMap_append

@[simp] theorem relinquished_append (first second : List Happening) :
    relinquished (first ++ second) = relinquished first ++ relinquished second :=
  List.flatMap_append

theorem acquired_report (move : Move) (effects : List Effect) :
    acquired (report move effects) = move.acquires ++ effects.flatMap Effect.acquires := by
  simp [acquired, report, List.flatMap_map, Happening.acquires]

theorem relinquished_report (move : Move) (effects : List Effect) :
    relinquished (report move effects) = effects.flatMap Effect.releases := by
  simp [relinquished, report, List.flatMap_map, Happening.releases]

theorem acquires_of_disposes (only : ∀ effect ∈ effects, effect.disposes) :
    effects.flatMap Effect.acquires = [] := by
  refine List.flatMap_eq_nil_iff.mpr fun effect member => ?_
  have disposes := only effect member
  unfold Effect.disposes at disposes
  split at disposes <;> simp_all [Effect.acquires]

theorem quiet_of_writes (quiet : ∀ effect ∈ effects, effect.writes) :
    effects.flatMap Effect.acquires = [] ∧ effects.flatMap Effect.releases = [] := by
  refine ⟨List.flatMap_eq_nil_iff.mpr fun effect member => ?_,
    List.flatMap_eq_nil_iff.mpr fun effect member => ?_⟩
  all_goals
    have writes := quiet effect member
    unfold Effect.writes at writes
    split at writes <;> simp_all [Effect.acquires, Effect.releases]

theorem acquires_of_waits (waits : move.waits) : move.acquires = [] := by
  cases move <;> simp_all [Move.waits, Move.acquires]

theorem Passes.conserves {channel : Channel} (passes : Passes link channel move effects) :
    move.acquires = [] ∧ effects.flatMap Effect.acquires = [] ∧
      effects.flatMap Effect.releases = link.closer.held := by
  cases passes with
  | unconnected locking => simp [Move.acquires, locking, Closer.held]
  | shut shutting =>
    simp [Move.acquires, Effect.acquires, Effect.releases, shutting, Closer.held]
  | unshut shutting =>
    simp [Move.acquires, Effect.acquires, Effect.releases, shutting, Closer.held]

theorem telling_conserves (link : Link) :
    link.telling.flatMap Effect.acquires = [] ∧ link.telling.flatMap Effect.releases = [] := by
  unfold telling
  split <;> simp [Effect.acquires, Effect.releases]

theorem Reader.held_abort (reader : Reader) : reader.abort.held = [] := by
  cases reader <;> rfl

theorem held_finish {readers : Channels Reader} {channel : Channel} {stream : Stream}
    (running : readers.get channel = .running stream) :
    (readers.control.held ++ readers.data.held).Perm
      (.half stream .reader :: ((readers.set channel .finished).control.held ++
        (readers.set channel .finished).data.held)) := by
  obtain ⟨control, data⟩ := readers
  cases channel with
  | control =>
    obtain rfl : control = .running stream := running
    rfl
  | data =>
    obtain rfl : data = .running stream := running
    exact List.perm_append_comm.trans (.append_left [_] (by simp [Reader.held, Channels.set]))

theorem Change.conserves (sound : link.Sound) (answers : link.Answers)
    (change : Change link move effects link') :
    (acquired (report move effects) ++ link.held).Perm
      (relinquished (report move effects) ++ link'.held) := by
  rw [acquired_report, relinquished_report, List.perm_iff_count]
  intro resource
  -- Each thing is counted on both sides. What the change does not move stays where it was, and what
  -- it puts into a place finds the place empty because the link is sound.
  cases change with
  | waits waits quiet =>
    obtain ⟨acquires, releases⟩ := quiet_of_writes quiet
    simp [acquires, releases, acquires_of_waits waits, held, unlocked]
  | late | takesEvents | resumesNothing | closesAgain | reads =>
    simp [Move.acquires, Effect.acquires, Effect.releases, held, unlocked]
  | lateTurn _ absent =>
    simp [Move.acquires, Effect.acquires, Effect.releases, held, unlocked, absent]
  | connects _ idle =>
    obtain ⟨absent, _⟩ := sound.idle idle
    simp [Move.acquires, held, unlocked, absent, Establishing.held, Channels.present]
  | turns _ absent idle =>
    simp [Move.acquires, held, unlocked, absent, Establishing.held, Channels.present]
  | @binds _ _ _ _ listener _ binding missing =>
    have same := ((Channels.present_set missing listener).map Resource.listener).count_eq resource
    simp only [List.map_cons, List.count_cons] at same
    simp [Move.acquires, held, unlocked, binding, Establishing.held, List.count_cons, same]
    omega
  | @launches _ _ _ _ listener control data task binding missing both =>
    have same := ((Channels.present_set missing listener).map Resource.listener).count_eq resource
    simp only [both, List.map_cons, List.count_cons] at same
    obtain ⟨_, _, _, helper⟩ := sound.roomy binding
    simp [Move.acquires, Effect.acquires, Effect.releases, held, unlocked, binding, helper,
      Establishing.held, Channels.present, Channels.toList, List.count_cons] at same ⊢
    omega
  | @connectsOne _ _ _ _ stream making _ missing =>
    have same := ((Channels.present_set missing stream).flatMap_right halves).count_eq resource
    simp [Move.acquires, held, unlocked, making, Establishing.held] at same ⊢
    omega
  | @connectsBoth _ _ _ _ stream control data making _ missing both =>
    have same := ((Channels.present_set missing stream).flatMap_right halves).count_eq resource
    obtain ⟨_, _, listeners⟩ := sound.roomy making
    simp [Move.acquires, held, unlocked, both, making, Establishing.held, listeners,
      Channels.present] at same ⊢
    omega
  | abandons _ fresh making =>
    simp [fresh, acquires_of_disposes (disposes_unlistenAll _), held, unlocked, making,
      Establishing.held]
  | abandonsOne abandoning releases only =>
    simp [Move.acquires, acquires_of_disposes only, releases, held, unlocked, abandoning,
      Establishing.held]
  | settles _ _ releases only =>
    have same := releases.count_eq resource
    simp [acquires_of_disposes only, held, unlocked, Establishing.held] at same ⊢
    omega
  | storesControl storing =>
    obtain ⟨_, bare, _⟩ := sound.roomy storing
    have missing : link.writers.control = none := bare .control
    simp [Move.acquires, held, unlocked, storing, Establishing.held, halves, Channels.set,
      Channels.present, missing, List.count_cons]
    omega
  | storesData storing =>
    obtain ⟨_, missing, paused, _⟩ := sound.roomy storing
    simp [Move.acquires, Effect.acquires, Effect.releases, held, unlocked, storing,
      Establishing.held, halves, Channels.set, Channels.present, Channels.toList, missing,
      paused, List.count_cons]
    omega
  | resumes ready paused =>
    obtain ⟨absent, readers⟩ := sound.paused (by simp [paused])
    simp [Move.acquires, Effect.acquires, Effect.releases, held, unlocked, paused, readers,
      Reader.held, Channels.toList]
  | readEnds running =>
    have same := (held_finish running).count_eq resource
    simp [Move.acquires, Effect.acquires, Effect.releases, held, unlocked,
      List.count_cons] at same ⊢
    omega
  | lastReadEnds running =>
    have same := (held_finish running).count_eq resource
    obtain ⟨acquires, releases⟩ := link.telling_conserves
    simp [acquires, releases, told, Move.acquires, Effect.acquires, Effect.releases, held, unlocked,
      List.count_cons] at same ⊢
    omega
  | closesDialing unasked _ releases only =>
    have absent : link.closer = .absent := by simpa [Answers, unasked] using answers
    simp [Move.acquires, acquires_of_disposes only, releases, held, unlocked, released,
      Reader.held_abort, Closer.held, absent]
    omega
  | closesWaiting unasked =>
    have absent : link.closer = .absent := by simpa [Answers, unasked] using answers
    simp [Move.acquires, held, unlocked, Closer.held, absent]
  | closesAlone waiting _ releases only =>
    simp [Move.acquires, acquires_of_disposes only, releases, held, unlocked, released,
      Reader.held_abort, Closer.held, waiting]
    omega
  | @closeLocks channel stream locking stored =>
    have same := ((Channels.present_unset stored).map (Resource.half · .writer)).count_eq resource
    simp [Move.acquires, held, unlocked, locking, Closer.held, List.count_cons] at same ⊢
    omega
  | passesControl passes =>
    obtain ⟨acquires, acquires', releases⟩ := passes.conserves
    simp [acquires, acquires', releases, held, unlocked, Closer.held]
    omega
  | terminates passes helper =>
    obtain ⟨acquires, acquires', releases⟩ := passes.conserves
    simp [acquires, acquires', releases, held, unlocked, helper, Closer.held, Effect.acquires,
      Effect.releases, List.count_cons]
    omega
  | returns passes =>
    obtain ⟨acquires, acquires', releases⟩ := passes.conserves
    obtain ⟨telling, telling'⟩ := link.telling_conserves
    simp [acquires, acquires', releases, telling, telling', held, unlocked, told, Closer.held,
      Effect.acquires, Effect.releases]
    omega
  | stops stopping =>
    obtain ⟨telling, telling'⟩ := link.telling_conserves
    simp [Move.acquires, telling, telling', held, unlocked, told, stopping, Closer.held,
      Effect.acquires, Effect.releases]

def Balanced (past : List Happening) (link : Link) : Prop :=
  link.Sound ∧ link.Answers ∧ (acquired past).Perm (relinquished past ++ link.held)

theorem balanced_fresh (role : Role) : Balanced [] (fresh role) :=
  ⟨sound_fresh role, rfl, .nil⟩

theorem Balanced.change {past : List Happening} (balanced : Balanced past link)
    (change : Change link move effects link') : Balanced (past ++ report move effects) link' := by
  obtain ⟨sound, answers, ledger⟩ := balanced
  refine ⟨sound.change change, answers.change change, ?_⟩
  rw [acquired_append, relinquished_append]
  calc
    (acquired past ++ acquired (report move effects)).Perm
        (relinquished past ++ link.held ++ acquired (report move effects)) :=
      ledger.append_right _
    _ = relinquished past ++ (link.held ++ acquired (report move effects)) := List.append_assoc ..
    List.Perm _ (relinquished past ++ (acquired (report move effects) ++ link.held)) :=
      List.perm_append_comm.append_left _
    List.Perm _ (relinquished past ++ (relinquished (report move effects) ++ link'.held)) :=
      (change.conserves sound answers).append_left _
    _ = relinquished past ++ relinquished (report move effects) ++ link'.held :=
      (List.append_assoc ..).symm

theorem balanced_of_journal {role : Role} {moves : List Move} {past : List Happening}
    (run : (fresh role).journal moves = some (past, link)) : Balanced past link :=
  journal_induction Balanced.change (balanced_fresh role) run

end Conservation

end TpmRelay.Link
