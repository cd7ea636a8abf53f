import Mathlib.Data.List.Chain
import TpmRelay.Proofs.Link.Ledger

set_option autoImplicit false

namespace TpmRelay.Link

inductive State.Follows : State → State → Prop where
  | stays {state : State} : Follows state state
  | begins : Follows .idle (.establishing ⟨false, false⟩)
  | marks {made : Channels Bool} (channel : Channel) :
      Follows (.establishing made) (.establishing (made.set channel true))
  | succeeds : Follows (.establishing ⟨true, true⟩) .ready
  | fails {made : Channels Bool} : Follows (.establishing made) .failed
  | closes {state : State} : Follows state .closed

def State.establishes : State → Bool
  | establishing _ => true
  | idle | ready | failed | closed => false

def State.rank : State → Nat
  | idle => 0
  | establishing _ => 1
  | ready | failed => 2
  | closed => 3

def path (link : Link) : List Move → List Link
  | [] => []
  | move :: moves =>
    match link.step move with
    | none => []
    | some (_, next) => next :: next.path moves

def Reader.runs : Reader → Bool
  | running _ => true
  | absent | finished | aborted => false

def starts (link next : Link) : List Channel :=
  [.control, .data].filter fun channel =>
    !(link.readers.get channel).runs && (next.readers.get channel).runs

def started (link : Link) : List Link → List Channel
  | [] => []
  | next :: links => link.starts next ++ next.started links

theorem State.Follows.rank_le {state next : State} (follows : state.Follows next) :
    state.rank ≤ next.rank := by
  cases follows with
  | closes => cases state <;> simp [rank]
  | stays => exact Nat.le_refl _
  | begins | marks | succeeds | fails => simp [rank]

theorem State.follows_fail (state : State) : state.Follows state.fail := by
  cases state with
  | establishing => exact .fails
  | _ => exact .stays

theorem State.follows_markMade (state : State) (channel : Channel) :
    state.Follows (state.markMade channel) := by
  cases state with
  | establishing => exact .marks channel
  | _ => exact .stays

section Sequence

variable {states : List State} {first middle last : State}

theorem pairwise_rank (chain : states.IsChain State.Follows) :
    states.Pairwise fun state next => state.rank ≤ next.rank := by
  have : IsTrans State fun state next => state.rank ≤ next.rank := ⟨fun _ _ _ => Nat.le_trans⟩
  exact (chain.imp fun _ _ follows => follows.rank_le).pairwise

theorem closed_of_chain (chain : states.IsChain State.Follows)
    (order : [.closed, last].Sublist states) : last = .closed := by
  have rank := (pairwise_rank chain).sublist order
  cases last <;> simp_all [State.rank]

theorem establishes_of_chain (chain : states.IsChain State.Follows)
    (order : [first, middle, last].Sublist states) (early : first.establishes = true)
    (late : last.establishes = true) : middle.establishes = true := by
  have rank := (pairwise_rank chain).sublist order
  cases first <;> cases middle <;> cases last <;> simp_all [State.rank, State.establishes]

end Sequence

def Staged (past : List Happening) (link : Link) : Establishing → Prop
  | .absent => True
  | .binding .. => link.state = .establishing ⟨false, false⟩
  | .making _ _ made =>
    link.state = .establishing ⟨made.control.isSome, made.data.isSome⟩ ∧
      ∀ channel stream, made.get channel = some stream → .made (.connected channel stream) ∈ past
  | .storing _ channel made =>
    link.state = .establishing ⟨true, true⟩ ∧
      (∀ channel, .made (.connected channel (made.get channel)) ∈ past) ∧
      (channel = .data → link.writers.control = some made.control)
  | .abandoning .. => link.state = .failed

structure Course (past : List Happening) (link : Link) : Prop where
  sound : link.Sound
  answers : link.Answers
  staged : link.state ≠ .closed → link.Staged past link.establishing
  ready : link.state = .ready → ∀ channel, ∃ stream,
    .made (.connected channel stream) ∈ past ∧ link.writers.get channel = some stream

variable {link link' : Link} {move : Move} {effects : List Effect} {past : List Happening}

theorem Staged.later {stage : Establishing} (staged : link.Staged past stage)
    (state : link'.state = link.state) (writers : link'.writers = link.writers)
    (more : List Happening) : link'.Staged (past ++ more) stage := by
  cases stage with
  | absent => trivial
  | binding => exact state.trans staged
  | abandoning => exact state.trans staged
  | making =>
    refine ⟨state.trans staged.1, fun channel stream made => ?_⟩
    exact List.mem_append_left _ (staged.2 channel stream made)
  | storing =>
    obtain ⟨before, connected, stored⟩ := staged
    refine ⟨state.trans before, fun channel => List.mem_append_left _ (connected channel), ?_⟩
    rwa [writers]

theorem State.ready_of_fail {state : State} (ready : state.fail = .ready) : state = .ready := by
  cases state <;> simp_all [State.fail]

theorem State.ready_of_markMade {state : State} {channel : Channel}
    (ready : state.markMade channel = .ready) : state = .ready := by
  cases state <;> simp_all [State.markMade]

section Connecting

variable {made : Channels (Option Stream)} {channel : Channel} {stream : Stream}

theorem mem_connected_set
    (connected : ∀ other stream, made.get other = some stream →
      .made (.connected other stream) ∈ past)
    (other : Channel) (last : Stream)
    (found : (made.set channel (some stream)).get other = some last) :
    .made (.connected other last) ∈ past ++ report (.connected channel stream) effects := by
  rw [Channels.get_set] at found
  split at found
  next same =>
    obtain rfl := Option.some.inj found
    simp [report, same]
  next => exact List.mem_append_left _ (connected other last found)

theorem markMade_isSome (made : Channels (Option Stream)) (channel : Channel) (stream : Stream) :
    (State.establishing ⟨made.control.isSome, made.data.isSome⟩).markMade channel =
      .establishing ⟨(made.set channel (some stream)).control.isSome,
        (made.set channel (some stream)).data.isSome⟩ := by
  cases channel <;> rfl

end Connecting

theorem Course.change (course : Course past link) (change : Change link move effects link') :
    Course (past ++ report move effects) link' := by
  have sound := course.sound.change change
  have answers := course.answers.change change
  have staged {stage : Establishing} (now : link.establishing = stage)
      (open' : link.state ≠ .closed) : link.Staged past stage := now ▸ course.staged open'
  have ready (before : link'.state = .ready → link.state = .ready)
      (writers : link'.writers = link.writers) (ready : link'.state = .ready) (channel : Channel) :
      ∃ stream, .made (.connected channel stream) ∈ past ++ report move effects ∧
        link'.writers.get channel = some stream := by
    obtain ⟨stream, connected, stored⟩ := course.ready (before ready) channel
    exact ⟨stream, List.mem_append_left _ connected, by rw [writers, stored]⟩
  have unchanged (state : link'.state = link.state)
      (establishing : link'.establishing = link.establishing)
      (writers : link'.writers = link.writers) : Course (past ++ report move effects) link' := by
    refine ⟨sound, answers, fun open' => ?_, ready state.symm.trans writers⟩
    rw [establishing]
    exact (course.staged (state ▸ open')).later state writers _
  have closed (state : link'.state = .closed) : Course (past ++ report move effects) link' :=
    ⟨sound, answers, fun open' => absurd state open', fun ready => by simp [state] at ready⟩
  cases change with
  | waits | late | takesEvents | resumes | resumesNothing | reads | readEnds | closesAgain
  | passesControl | terminates | returns | stops | closesAlone => exact unchanged rfl rfl rfl
  | lastReadEnds | closesDialing | closesWaiting => exact closed rfl
  | closeLocks locking => exact closed (course.answers.closing (by simp [locking])).2
  | lateTurn => exact ⟨sound, answers, fun _ => trivial, ready id rfl⟩
  | connects =>
    refine ⟨sound, answers, fun _ => ⟨rfl, fun channel => ?_⟩, by simp⟩
    cases channel <;> simp [Channels.get]
  | turns => exact ⟨sound, answers, fun _ => rfl, by simp⟩
  | binds binding => exact ⟨sound, answers, fun open' => staged binding open', ready id rfl⟩
  | launches binding =>
    refine ⟨sound, answers, fun open' => ⟨staged binding open', fun channel => ?_⟩, ready id rfl⟩
    cases channel <;> simp [Channels.get]
  | @connectsOne call listeners made channel stream making =>
    refine ⟨sound, answers, fun open' => ?_, ready State.ready_of_markMade rfl⟩
    obtain ⟨state, connected⟩ := staged making fun closed => open' (by simp [closed, State.markMade])
    refine ⟨?_, mem_connected_set connected⟩
    rw [← markMade_isSome made, ← state]
  | @connectsBoth call listeners made channel stream control data making _ _ both =>
    refine ⟨sound, answers, fun open' => ?_, ready State.ready_of_markMade rfl⟩
    obtain ⟨state, connected⟩ := staged making fun closed => open' (by simp [closed, State.markMade])
    have marked := markMade_isSome made channel stream
    have all : ∀ other last, (made.set channel (some stream)).get other = some last →
        .made (.connected other last) ∈ past ++ report (.connected channel stream) [] :=
      mem_connected_set connected
    rw [both] at marked all
    refine ⟨?_, fun other => all other _ ?_, by simp⟩
    next => exact state ▸ marked
    next => cases other <;> rfl
  | abandons _ _ making =>
    refine ⟨sound, answers, fun open' => ?_, ready State.ready_of_fail rfl⟩
    have state := (staged making fun closed => open' (by simp [closed, State.fail])).1
    simp [Staged, state, State.fail]
  | abandonsOne abandoning =>
    exact ⟨sound, answers, fun open' => staged abandoning open', ready id rfl⟩
  | settles _ _ _ _ failed =>
    refine ⟨sound, answers, fun _ => trivial, ready (fun ready => ?_) rfl⟩
    rcases failed with rfl | rfl
    next => exact State.ready_of_fail ready
    next => exact ready
  | @storesControl call made locks storing =>
    refine ⟨sound, answers, fun open' => ?_, fun (ready : link.state = .ready) => ?_⟩
    next =>
      obtain ⟨state, connected, -⟩ := staged storing open'
      exact ⟨state, fun channel => List.mem_append_left _ (connected channel), fun _ => rfl⟩
    next =>
      have state := (staged storing (by simp [ready])).1
      simp [ready] at state
  | @storesData call made locks state result storing goesOn =>
    refine ⟨sound, answers, fun _ => trivial, fun (ready : state = .ready) channel => ?_⟩
    have open' : link.state ≠ .closed := by
      rcases goesOn with same | ⟨⟨_, establishing⟩, -⟩
      next => simp [← same, ready]
      next => simp [establishing]
    obtain ⟨-, connected, stored⟩ := staged storing open'
    refine ⟨made.get channel, List.mem_append_left _ (connected channel), ?_⟩
    cases channel with
    | control => exact stored rfl
    | data => rfl

theorem Change.follows (course : Course past link) (change : Change link move effects link') :
    link.state.Follows link'.state := by
  cases change with
  | connects _ idle | turns _ _ idle =>
    rw [idle]
    exact .begins
  | connectsOne | connectsBoth => exact State.follows_markMade _ _
  | abandons => exact State.follows_fail _
  | settles _ _ _ _ failed =>
    rcases failed with rfl | rfl
    next => exact State.follows_fail _
    next => exact .stays
  | storesData storing ready =>
    rcases ready with rfl | ⟨⟨made, establishing⟩, rfl⟩
    next => exact .stays
    next =>
      have staged := course.staged (by simp [establishing])
      rw [storing] at staged
      rw [staged.1]
      exact .succeeds
  | lastReadEnds | closesDialing | closesWaiting => exact .closes
  | _ => exact .stays

inductive Started : List Channel → Link → Prop where
  | before {link : Link} (absent : link.readers = ⟨.absent, .absent⟩)
      (paused : link.state = .ready → link.paused ≠ none) : Started [] link
  | after {link : Link} (present : link.readers ≠ ⟨.absent, .absent⟩) :
      Started [.control, .data] link

theorem starts_of_readers (same : link'.readers = link.readers) : link.starts link' = [] := by
  simp [starts, same]

theorem Started.keep {channels : List Channel} (started : Started channels link)
    (readers : link'.readers = link.readers)
    (paused : link'.state = .ready → link'.paused = none →
      link.state = .ready ∧ link.paused = none) :
    Started (channels ++ link.starts link') link' := by
  rw [starts_of_readers readers, List.append_nil]
  cases started with
  | before absent idle =>
    refine .before (readers.trans absent) fun ready' gone => ?_
    obtain ⟨ready, gone⟩ := paused ready' gone
    exact idle ready gone
  | after present => exact .after (readers ▸ present)

theorem Started.finish {channels : List Channel} {channel : Channel} {stream : Stream}
    (started : Started channels link) (running : link.readers.get channel = .running stream)
    (readers : link'.readers = link.readers.set channel .finished) :
    Started (channels ++ link.starts link') link' := by
  have quiet : link.starts link' = [] := by
    rw [starts, readers]
    cases channel <;> simp [Reader.runs]
  rw [quiet, List.append_nil]
  cases started with
  | before absent =>
    rw [absent] at running
    cases channel <;> cases running
  | after =>
    refine .after ?_
    rw [readers]
    cases channel <;> simp [Channels.set]

theorem Started.release {channels : List Channel} (started : Started channels link)
    (readers : link'.readers = ⟨link.readers.control.abort, link.readers.data.abort⟩)
    (closed : link'.state = .closed) : Started (channels ++ link.starts link') link' := by
  have abort (reader : Reader) :
      reader.abort.runs = false ∧ (reader.abort = .absent ↔ reader = .absent) := by
    cases reader <;> simp [Reader.abort, Reader.runs]
  have quiet : link.starts link' = [] := by
    simp [starts, readers, Channels.get, (abort _).1]
  rw [quiet, List.append_nil]
  cases started with
  | before absent =>
    refine .before ?_ fun ready => ?_
    next =>
      rw [readers, absent]
      rfl
    next => simp [closed] at ready
  | after present =>
    refine .after fun absent => present ?_
    rw [readers, Channels.mk.injEq, (abort _).2, (abort _).2] at absent
    calc link.readers = ⟨link.readers.control, link.readers.data⟩ := rfl
      _ = ⟨.absent, .absent⟩ := by rw [absent.1, absent.2]

theorem Started.change {channels : List Channel} (started : Started channels link)
    (course : Course past link) (change : Change link move effects link') :
    Started (channels ++ link.starts link') link' := by
  cases change with
  | @resumes made ready paused =>
    obtain ⟨-, absent⟩ := course.sound.paused (by simp [paused])
    cases started with
    | after present => exact absurd absent present
    | before =>
      have both : link.starts { link with
          paused := none
          readers := ⟨.running made.control, .running made.data⟩
          openReaders := 2 } = [.control, .data] := by
        simp [starts, absent, Reader.runs, Channels.get]
      rw [both]
      exact .after (by simp)
  | readEnds running | lastReadEnds running => exact started.finish running rfl
  | closesDialing => exact started.release rfl rfl
  | closesAlone waiting =>
    exact started.release rfl (course.answers.closing (by simp [waiting])).2
  | storesData => exact started.keep rfl (by simp)
  | connectsOne | connectsBoth =>
    exact started.keep rfl fun ready paused => ⟨State.ready_of_markMade ready, paused⟩
  | abandons => exact started.keep rfl fun ready paused => ⟨State.ready_of_fail ready, paused⟩
  | settles _ _ _ _ failed =>
    refine started.keep rfl fun ready paused => ⟨?_, paused⟩
    rcases failed with rfl | rfl
    next => exact State.ready_of_fail ready
    next => exact ready
  | connects | turns | closesWaiting => exact started.keep rfl (by simp)
  | _ => exact started.keep rfl fun ready paused => ⟨ready, paused⟩

theorem course_of_journal {last : Link} {moves : List Move} {happenings : List Happening}
    {channels : List Channel} (course : Course past link) (begun : Started channels link)
    (run : link.journal moves = some (happenings, last)) :
    Course (past ++ happenings) last ∧
      Started (channels ++ link.started (link.path moves)) last ∧
      (link.state :: (link.path moves).map (·.state)).IsChain State.Follows := by
  induction moves generalizing past link happenings channels with
  | nil =>
    obtain ⟨rfl, rfl⟩ := Prod.mk.inj (Option.some.inj run)
    simpa [path, started] using ⟨course, begun⟩
  | cons move moves ih =>
    obtain ⟨effects, next, later, stepped, rest, rfl⟩ := journal_cons run
    have change := step_change stepped
    obtain ⟨final, ended, chain⟩ := ih (course.change change) (begun.change course change) rest
    have path : link.path (move :: moves) = next :: next.path moves := by simp [Link.path, stepped]
    rw [path, started, ← List.append_assoc, ← List.append_assoc]
    exact ⟨final, ended, .cons_cons (change.follows course) chain⟩

theorem course_fresh (role : Role) : Course [] (fresh role) where
  sound := sound_fresh role
  answers := rfl
  staged _ := trivial
  ready := nofun

theorem Course.store (course : Course past link)
    (stepped : link.step .store = some (effects, link')) (call : Nat) (state : State) :
    .established call (.error (.alreadyStarted state)) ∉ effects := by
  simp only [step, stepEstablishing] at stepped
  split at stepped
  next owner channel made storing =>
    split at stepped
    next =>
      have state : link.state = .closed ∨ link.state = .establishing ⟨true, true⟩ := by
        have staged := course.staged
        rw [storing] at staged
        exact or_iff_not_imp_left.mpr fun open' => (staged open').1
      cases channel with
      | control =>
        obtain ⟨rfl, -⟩ := Prod.mk.inj (Option.some.inj stepped)
        exact List.not_mem_nil
      | data =>
        rcases state with closed | establishing
        next =>
          simp only [Link.store, popLock, closed, settleCall, Option.some.injEq,
            Prod.mk.injEq] at stepped
          simp [← stepped.1]
        next =>
          simp only [Link.store, popLock, establishing, settleCall, Option.some.injEq,
            Prod.mk.injEq] at stepped
          simp [← stepped.1]
    next => cases stepped
  next => cases stepped

theorem step_resume (link : Link) :
    ∃ result next, link.step .resume = some ([.resumed result], next) ∧
      (result = .ok () ↔ link.state = .ready) := by
  refine ⟨link.resume.1, link.resume.2, rfl, ?_⟩
  cases state : link.state <;> cases paused : link.paused <;> simp [resume, state, paused]

theorem link_is_established_once {role : Role} {moves : List Move}
    (run : (fresh role).journal moves = some (past, link)) :
    let states := .idle :: ((fresh role).path moves).map (·.state)
    let started := (fresh role).started ((fresh role).path moves)
    states.IsChain State.Follows ∧
    (∀ state, [.closed, state].Sublist states → state = .closed) ∧
    (∀ first middle last, [first, middle, last].Sublist states →
      first.establishes = true → last.establishes = true → middle.establishes = true) ∧
    (link.state = .ready →
      (∀ channel, ∃ stream, .made (.connected channel stream) ∈ past ∧
        link.writers.get channel = some stream) ∧
      Xor (link.paused.isSome = true) (started = [.control, .data])) ∧
    (started = [] ∨ started = [.control, .data]) ∧
    (∀ effects next call state, link.step .store = some (effects, next) →
      .established call (.error (.alreadyStarted state)) ∉ effects) ∧
    ∃ result next, link.step .resume = some ([.resumed result], next) ∧
      (result = .ok () ↔ link.state = .ready) := by
  obtain ⟨course, started, chain⟩ :=
    course_of_journal (course_fresh role) (.before rfl nofun) run
  rw [List.nil_append] at course started
  refine ⟨chain, fun _ => closed_of_chain chain, fun _ _ _ => establishes_of_chain chain, ?_, ?_,
    fun _ _ _ _ stepped => course.store stepped _ _, step_resume link⟩
  next =>
    intro ready
    refine ⟨course.ready ready, ?_⟩
    generalize (fresh role).started ((fresh role).path moves) = channels at started
    cases started with
    | before absent paused => simpa [Xor, Option.isSome_iff_ne_none] using paused ready
    | after present =>
      have gone : link.paused = none :=
        Classical.byContradiction fun paused => present (course.sound.paused paused).2
      simp [Xor, gone]
  next =>
    generalize (fresh role).started ((fresh role).path moves) = channels at started
    cases started with
    | before => exact .inl rfl
    | after => exact .inr rfl

def opening : List Move :=
  [.connect 0, .connected .data 1, .connected .control 2, .queueUp, .store, .queueUp, .store,
    .resume]

theorem opening_establishes_once :
    (∃ past link, (fresh .dialing).journal opening = some (past, link) ∧ link.state = .ready ∧
      (∀ channel, ∃ stream, .made (.connected channel stream) ∈ past ∧
        link.writers.get channel = some stream) ∧
      link.paused = none ∧
      (fresh .dialing).started ((fresh .dialing).path opening) = [.control, .data]) ∧
    ∃ past link effects next, (fresh .dialing).journal (opening.take 6) = some (past, link) ∧
      link.step .store = some (effects, next) ∧
      ∀ call state, .established call (.error (.alreadyStarted state)) ∉ effects := by
  constructor
  next =>
    obtain ⟨past, link, run, ready, unpaused⟩ : ∃ past link,
        (fresh .dialing).journal opening = some (past, link) ∧ link.state = .ready ∧
          link.paused = none := ⟨_, _, rfl, rfl, rfl⟩
    obtain ⟨-, -, -, held, -⟩ := link_is_established_once run
    obtain ⟨connected, either⟩ := held ready
    have started := (either.resolve_left (by simp [unpaused])).1
    exact ⟨past, link, run, ready, connected, unpaused, started⟩
  next =>
    obtain ⟨past, link, effects, next, run, stepped⟩ : ∃ past link effects next,
        (fresh .dialing).journal (opening.take 6) = some (past, link) ∧
          link.step .store = some (effects, next) := ⟨_, _, _, _, rfl, rfl⟩
    obtain ⟨-, -, -, -, -, stored, -⟩ := link_is_established_once run
    exact ⟨past, link, effects, next, run, stepped, fun _ _ => stored _ _ _ _ stepped⟩

end TpmRelay.Link
