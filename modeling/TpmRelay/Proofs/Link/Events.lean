import Mathlib.Logic.Function.Basic
import TpmRelay.Proofs.Link.Connections

set_option autoImplicit false

namespace TpmRelay.Link

-- What a peer sends on a connection, until it ends with or without a fault.
structure Feed where
  sent : Bytes := []
  unread : Bytes := []
  ended : Option (Except Fault Unit) := none

structure Line where
  link : Link
  feeds : Stream → Feed := fun _ => {}
  -- What had been queued when whoever took the events left.
  left : Option (List Event) := none

namespace Line

inductive Act where
  | sends (stream : Stream) (bytes : Bytes)
  | ends (stream : Stream) (result : Except Fault Unit)
  | leaves
  | own (move : Move)

def modifyFeed (line : Line) (stream : Stream) (f : Feed → Feed) : Line :=
  { line with feeds := Function.update line.feeds stream (f (line.feeds stream)) }

theorem feeds_modifyFeed (line : Line) (stream other : Stream) (f : Feed → Feed) :
    (line.modifyFeed stream f).feeds other =
      if other = stream then f (line.feeds stream) else line.feeds other :=
  Function.update_apply ..

def receive (line : Line) : Move → Option Line
  | .read channel bytes =>
    match line.link.readers.get channel with
    | .running stream =>
      if line.left.isNone ∧ bytes <+: (line.feeds stream).unread then
        some (line.modifyFeed stream fun feed =>
          { feed with unread := feed.unread.drop bytes.length })
      else none
    | _ => none
  | .readEnd channel =>
    match line.link.readers.get channel with
    | .running stream =>
      let feed := line.feeds stream
      if feed.unread = [] then if feed.ended.isSome then some line else none
      -- A reader also ends when nobody is left to take what it has read.
      else if line.left.isSome then some line else none
    | _ => none
  | _ => some line

def step (line : Line) : Act → Option Line
  | .sends stream bytes =>
    if (line.feeds stream).ended.isNone then
      some (line.modifyFeed stream fun feed =>
        { feed with sent := feed.sent ++ bytes, unread := feed.unread ++ bytes })
    else none
  | .ends stream result =>
    if (line.feeds stream).ended.isNone then
      some (line.modifyFeed stream fun feed => { feed with ended := some result })
    else none
  | .leaves =>
    if line.link.eventsTaken ∧ line.left.isNone then
      some { line with left := some line.link.queued }
    else none
  | .own move => do
    let line ← line.receive move
    let (_, link) ← line.link.step move
    return { line with link }

def run (line : Line) : List Act → Option Line
  | [] => some line
  | act :: acts => do
    let line ← line.step act
    line.run acts

def fresh (role : Role) : Line :=
  { link := Link.fresh role }

def events (line : Line) : List Event :=
  line.left.getD line.link.queued

def Act.move? : Act → Option Move
  | own move => some move
  | sends .. | ends .. | leaves => none

def moves (acts : List Act) : List Move :=
  acts.filterMap Act.move?

end Line

def Event.bytes (channel : Channel) : Event → Bytes
  | chunk other bytes => if other = channel then bytes else []
  | closed => []

def received (channel : Channel) (events : List Event) : Bytes :=
  events.flatMap (Event.bytes channel)

def Event.Fits : Event → Prop
  | chunk _ bytes => bytes ≠ [] ∧ bytes.length ≤ chunkLimit
  | closed => False

structure Tells (link : Link) : Prop where
  state : link.notified = true → link.state = .closed
  -- Whoever tells the close is the last that may tell anything.
  silent : ∀ channel stream, link.readers.get channel = .running stream → link.notified = false
  aborted : ∀ channel, link.readers.get channel = .aborted → link.closer.working
  started : link.readers.control = .absent ↔ link.readers.data = .absent
  -- An aborted reader is never counted off.
  counted : (∀ channel, link.readers.get channel ≠ .aborted) →
    link.openReaders = link.readers.control.held.length + link.readers.data.held.length
  finished : link.notified = true → link.closing = false →
    ∀ channel, link.readers.get channel = .finished
  unread : link.readers.control = .absent → ∀ event ∈ link.queued, event = .closed
  queued : ∃ chunks, link.queued = chunks ++ (if link.notified then [.closed] else []) ∧
    ∀ event ∈ chunks, event.Fits

section Telling

variable {link link' : Link} {move : Move} {effects : List Effect}

theorem tells_fresh (role : Role) : (fresh role).Tells where
  state := nofun
  silent := fun channel stream running => by cases channel <;> cases running
  aborted := fun channel aborted => by cases channel <;> cases aborted
  started := Iff.rfl
  counted _ := rfl
  finished := nofun
  unread _ := nofun
  queued := ⟨[], rfl, nofun⟩

theorem Tells.keep (tells : link.Tells) (notified : link'.notified = link.notified)
    (readers : link'.readers = link.readers) (openReaders : link'.openReaders = link.openReaders)
    (queued : link'.queued = link.queued)
    (state : link.state = .closed → link'.state = .closed)
    (closer : link.closer.working → link'.closer.working)
    (closing : link'.closing = false → link.closing = false) : link'.Tells where
  state told := state (tells.state (notified ▸ told))
  silent := by rw [readers, notified]; exact tells.silent
  aborted channel aborted := closer (tells.aborted channel (readers ▸ aborted))
  started := by rw [readers]; exact tells.started
  counted := by rw [readers, openReaders]; exact tells.counted
  finished told asked := by
    rw [readers]
    exact tells.finished (notified ▸ told) (closing asked)
  unread := by rw [readers, queued]; exact tells.unread
  queued := by rw [queued, notified]; exact tells.queued

theorem Tells.released (tells : link.Tells) (closing : link.closing = true) :
    link.released.Tells where
  state := tells.state
  silent channel stream running := absurd running (Muted.released link rfl channel stream)
  aborted _ _ := rfl
  started := by
    have absent (reader : Reader) : reader.abort = .absent ↔ reader = .absent := by
      cases reader <;> simp [Reader.abort]
    exact (absent _).trans (tells.started.trans (absent _).symm)
  counted whole := by
    have same (reader : Reader) (whole : reader.abort ≠ .aborted) : reader.abort = reader := by
      cases reader <;> simp_all [Reader.abort]
    have control := same link.readers.control (whole .control)
    have data := same link.readers.data (whole .data)
    have counted := tells.counted fun channel aborted => whole channel (by
      cases channel <;> simp_all [Link.released, Channels.get, Reader.abort])
    simp only [Link.released, control, data]
    exact counted
  finished _ asked := by simp [Link.released, closing] at asked
  unread absent := tells.unread (by
    cases control : link.readers.control <;> simp_all [Link.released, Reader.abort])
  queued := tells.queued

theorem Tells.resume {made : Channels Stream} (tells : link.Tells) (ready : link.state = .ready) :
    Tells { link with
      paused := none
      readers := ⟨.running made.control, .running made.data⟩
      openReaders := 2 } := by
  have untold : link.notified ≠ true := fun told => by simp [tells.state told] at ready
  exact {
    state := fun told => absurd told untold
    silent := fun _ _ _ => Bool.eq_false_iff.mpr untold
    aborted := fun channel aborted => by cases channel <;> cases aborted
    started := by simp
    counted := fun _ => rfl
    finished := fun told => absurd told untold
    unread := nofun
    queued := tells.queued }

theorem Tells.not_absent {channel : Channel} {stream : Stream} (tells : link.Tells)
    (running : link.readers.get channel = .running stream) (other : Channel) :
    link.readers.get other ≠ .absent := by
  have started := tells.started
  cases channel <;> cases other <;> simp_all [Channels.get]

theorem Tells.read {channel : Channel} {bytes : Bytes} {stream : Stream} (tells : link.Tells)
    (running : link.readers.get channel = .running stream)
    (fits : (Event.chunk channel bytes).Fits) :
    Tells { link with queued := link.queued ++ [.chunk channel bytes] } := by
  have untold := tells.silent channel stream running
  obtain ⟨chunks, queued, all⟩ := tells.queued
  refine { tells with
    unread := fun absent => ?_, queued := ⟨chunks ++ [.chunk channel bytes], ?_, ?_⟩ }
  next => exact absurd absent (tells.not_absent running .control)
  next => simp [queued, untold]
  next => simpa [or_imp, forall_and] using ⟨all, fits⟩

theorem Tells.count {channel : Channel} {stream : Stream} (tells : link.Tells)
    (muted : link.Muted) (running : link.readers.get channel = .running stream) :
    (∀ channel, link.readers.get channel ≠ .aborted) ∧
      link.openReaders = ((link.readers.set channel .finished).control.held ++
        (link.readers.set channel .finished).data.held).length + 1 := by
  have whole : ∀ channel, link.readers.get channel ≠ .aborted := fun other aborted =>
    muted (tells.aborted other aborted) channel stream running
  refine ⟨whole, ?_⟩
  rw [tells.counted whole, ← List.length_append, (held_finish running).length_eq,
    List.length_cons]

theorem Tells.readEnd {channel : Channel} {stream : Stream} (tells : link.Tells)
    (muted : link.Muted) (running : link.readers.get channel = .running stream) :
    Tells { link with
      readers := link.readers.set channel .finished
      openReaders := link.openReaders - 1 } := by
  obtain ⟨whole, count⟩ := tells.count muted running
  have untold := tells.silent channel stream running
  have before (other : Channel) (reader : Reader) (differs : reader ≠ .finished)
      (now : (link.readers.set channel .finished).get other = reader) :
      link.readers.get other = reader := by
    rw [Channels.get_set] at now
    split at now
    next => exact absurd now.symm differs
    next => exact now
  have present (other : Channel) : (link.readers.set channel .finished).get other ≠ .absent :=
    fun absent => tells.not_absent running other (before other .absent nofun absent)
  exact {
    state := tells.state
    silent := fun _ _ _ => untold
    aborted := fun other aborted => absurd (before other .aborted nofun aborted) (whole other)
    started := ⟨fun absent => absurd absent (present .control),
      fun absent => absurd absent (present .data)⟩
    counted := fun _ => by simp only [count, List.length_append, Nat.add_sub_cancel]
    finished := fun told => by simp [untold] at told
    unread := fun absent => absurd absent (present .control)
    queued := tells.queued }

theorem Tells.last {channel : Channel} {stream : Stream} (tells : link.Tells)
    (muted : link.Muted) (running : link.readers.get channel = .running stream)
    (last : link.openReaders - 1 = 0) (other : Channel) :
    (link.readers.set channel .finished).get other = .finished := by
  -- The count is exact as long as no reader was aborted, so nobody else is running.
  obtain ⟨whole, count⟩ := tells.count muted running
  have nobody : (link.readers.set channel .finished).control.held = [] ∧
      (link.readers.set channel .finished).data.held = [] := by
    rw [← List.append_eq_nil_iff]
    exact List.length_eq_zero_iff.mp (by omega)
  have idle : ((link.readers.set channel .finished).get other).held = [] := by
    cases other with
    | control => exact nobody.1
    | data => exact nobody.2
  rw [Channels.get_set] at idle ⊢
  split
  next => rfl
  next differs =>
    rw [if_neg differs] at idle
    cases reader : link.readers.get other with
    | absent => exact absurd reader (tells.not_absent running other)
    | running => simp [reader, Reader.held] at idle
    | finished => rfl
    | aborted => exact absurd reader (whole other)

theorem Tells.told (tells : link.Tells) (closed : link.state = .closed)
    (idle : ∀ channel stream, link.readers.get channel ≠ .running stream)
    (finished : link.closing = false → ∀ channel, link.readers.get channel = .finished) :
    link.told.Tells := by
  obtain ⟨chunks, queued, all⟩ := tells.queued
  exact { tells with
    state := fun _ => closed
    silent := fun channel stream running => absurd running (idle channel stream)
    finished := fun _ => finished
    unread := fun absent event member => by
      have old := tells.unread absent
      simp only [Link.told] at member
      split at member
      next => exact old event member
      next =>
        rcases List.mem_append.mp member with before | now
        next => exact old event before
        next => exact List.mem_singleton.mp now
    queued := by
      refine ⟨chunks, ?_, all⟩
      cases notified : link.notified <;> simp [Link.told, queued, notified] }

theorem Tells.change (tells : link.Tells) (answers : link.Answers) (muted : link.Muted)
    (change : Change link move effects link') : link'.Tells := by
  have final := change.final
  cases change with
  | resumes ready => exact tells.resume ready
  | reads running some' limited => exact tells.read running ⟨some', limited⟩
  | readEnds running => exact tells.readEnd muted running
  | lastReadEnds running last =>
    have all := tells.last muted running last
    have ended : Tells { link with
        state := .closed
        readers := link.readers.set _ .finished
        openReaders := link.openReaders - 1 } :=
      (tells.readEnd muted running).keep rfl rfl rfl rfl (fun _ => rfl) id id
    exact ended.told rfl (fun other stream running => by simp [all other] at running) fun _ => all
  | closesDialing unasked =>
    have asked : Tells { link with closing := true, state := .closed } :=
      tells.keep rfl rfl rfl rfl (fun _ => rfl) id nofun
    exact asked.released rfl
  | closesWaiting unasked =>
    refine tells.keep rfl rfl rfl rfl final (fun working => ?_) nofun
    simp [(answers.working working).1] at unasked
  | @closesAlone _ gate waiting =>
    obtain ⟨closing, _⟩ := answers.closing (by simp [waiting])
    have queued : Tells { link with gate } := tells.keep rfl rfl rfl rfl id id id
    exact queued.released closing
  | closeLocks | passesControl | terminates =>
    exact tells.keep rfl rfl rfl rfl final (fun _ => rfl) id
  | returns passes =>
    obtain ⟨closing, closed⟩ := answers.closing passes.busy
    have told := tells.told closed (muted passes.working) fun asked => by simp [closing] at asked
    exact told.keep rfl rfl rfl rfl id (fun _ => rfl) id
  | stops stopping =>
    obtain ⟨closing, closed⟩ := answers.closing (by simp [stopping])
    have told := tells.told closed (muted (by simp [stopping, Closer.working])) fun asked => by
      simp [closing] at asked
    exact told.keep rfl rfl rfl rfl id (fun _ => rfl) id
  | _ => exact tells.keep rfl rfl rfl rfl final id id

theorem Tells.alone {channel other : Channel} (tells : link.Tells) (muted : link.Muted)
    (change : Change link (.readEnd channel) effects link') (differs : other ≠ channel)
    (more : link.readers.get other ≠ .finished) :
    link'.queued = link.queued ∧ link'.state = link.state := by
  cases change with
  | readEnds => exact ⟨rfl, rfl⟩
  | lastReadEnds running last =>
    have finished := tells.last muted running last other
    rw [Channels.get_set, if_neg differs] at finished
    exact absurd finished more
  | waits waits => cases waits
  | abandons settles | settles _ settles => cases settles
  | passesControl passes | terminates passes | returns passes => cases passes

theorem Tells.notified_of_mem (tells : link.Tells) (closed : .closed ∈ link.queued) :
    link.notified = true := by
  obtain ⟨chunks, queued, fits⟩ := tells.queued
  by_cases told : link.notified = true
  next => exact told
  next =>
    rw [queued, if_neg told, List.append_nil] at closed
    exact absurd (fits _ closed) id

theorem Tells.unresumed (tells : link.Tells) (absent : link.readers.control = .absent) :
    link.queued <+: [.closed] := by
  obtain ⟨chunks, queued, fits⟩ := tells.queued
  have nothing : chunks = [] := by
    refine List.eq_nil_iff_forall_not_mem.mpr fun event member => ?_
    have closed := tells.unread absent event (by simp [queued, member])
    have := fits event member
    rw [closed] at this
    exact this
  rw [queued, nothing]
  split <;> simp

end Telling

def Move.reads (channel : Channel) : Move → Bytes
  | read other bytes => if other = channel then bytes else []
  | _ => []

section Lines

variable {link link' : Link} {line line' : Line} {move : Move} {effects : List Effect}

@[simp] theorem received_append (channel : Channel) (first second : List Event) :
    received channel (first ++ second) = received channel first ++ received channel second :=
  List.flatMap_append

theorem received_told (channel : Channel) (link : Link) :
    received channel link.told.queued = received channel link.queued := by
  simp only [told]
  split
  next => rfl
  next => simp [received, Event.bytes]

theorem queued_told (link : Link) : link.queued <+: link.told.queued := by
  simp only [told]
  split
  next => exact List.prefix_rfl
  next => exact List.prefix_append ..

theorem Change.queued (change : Change link move effects link') : link.queued <+: link'.queued := by
  cases change with
  | reads => exact List.prefix_append ..
  | lastReadEnds | returns | stops => exact queued_told link
  | _ => exact List.prefix_rfl

theorem Change.received (change : Change link move effects link') (channel : Channel) :
    received channel link'.queued = received channel link.queued ++ move.reads channel := by
  have nothing (quiet : move.reads channel = []) (same : Link.received channel link'.queued =
      Link.received channel link.queued) : Link.received channel link'.queued =
        Link.received channel link.queued ++ move.reads channel := by
    rw [quiet, List.append_nil, same]
  cases change with
  | waits waits => exact nothing (by cases move <;> simp_all [Move.waits, Move.reads]) rfl
  | settles _ settles | abandons settles =>
    exact nothing (by cases move <;> simp_all [Move.settles, Move.reads]) rfl
  | reads => simp [Link.received, Event.bytes, Move.reads]
  | lastReadEnds | stops => exact nothing rfl (received_told channel link)
  | passesControl passes | terminates passes => exact nothing (by cases passes <;> rfl) rfl
  | returns passes => exact nothing (by cases passes <;> rfl) (received_told channel link)
  | _ => exact nothing rfl rfl

theorem finished_of_released {channel : Channel}
    (now : link.released.readers.get channel = .finished) :
    link.readers.get channel = .finished := by
  have before (reader : Reader) (now : reader.abort = .finished) : reader = .finished := by
    cases reader <;> simp_all [Reader.abort]
  cases channel with
  | control => exact before link.readers.control now
  | data => exact before link.readers.data now

theorem Change.finished (change : Change link move effects link') {channel : Channel}
    (now : link'.readers.get channel = .finished) :
    link.readers.get channel = .finished ∨ move = .readEnd channel := by
  cases change with
  | resumes => cases channel <;> cases now
  | readEnds | lastReadEnds =>
    simp only [Channels.get_set] at now
    split at now
    next same => exact .inr (by rw [same])
    next => exact .inl now
  | closesDialing | closesAlone => exact .inl (finished_of_released now)
  | _ => exact .inl now

theorem Line.connected_moves {acts : List Line.Act} {channel : Channel} {stream : Stream} :
    Connected (Line.moves acts) channel stream ↔ .own (.connected channel stream) ∈ acts := by
  rw [Connected, Line.moves, List.mem_filterMap]
  constructor
  next =>
    rintro ⟨act, member, same⟩
    cases act with
    | own move =>
      obtain rfl := Option.some.inj same
      exact member
    | _ => cases same
  next => exact fun member => ⟨_, member, rfl⟩

/-- How what a move needs is taken from the feeds. -/
inductive Line.Takes (line : Line) : Move → Line → Prop where
  | reads {channel : Channel} {stream : Stream} {bytes : Bytes} (there : line.left = none)
      (running : line.link.readers.get channel = .running stream)
      (front : bytes <+: (line.feeds stream).unread) :
      Takes line (.read channel bytes) (line.modifyFeed stream fun feed =>
        { feed with unread := feed.unread.drop bytes.length })
  | ends {channel : Channel} {stream : Stream}
      (running : line.link.readers.get channel = .running stream)
      (unread : (line.feeds stream).unread = []) (ended : (line.feeds stream).ended.isSome) :
      Takes line (.readEnd channel) line
  | loses {channel : Channel} {stream : Stream} {events : List Event}
      (left : line.left = some events)
      (running : line.link.readers.get channel = .running stream) :
      Takes line (.readEnd channel) line
  | nothing {move : Move} (quiet : ∀ channel, move.reads channel = [] ∧ move ≠ .readEnd channel) :
      Takes line move line

theorem Line.takes_of_receive (received : line.receive move = some line') :
    line.Takes move line' := by
  cases move with
  | read channel bytes =>
    simp only [receive] at received
    split at received
    next stream running =>
      obtain ⟨⟨there, front⟩, ⟨⟩⟩ := Option.ite_none_right_eq_some.mp received
      exact .reads (Option.isNone_iff_eq_none.mp there) running front
    next => cases received
  | readEnd channel =>
    simp only [receive] at received
    split at received
    next stream running =>
      split at received
      next unread =>
        obtain ⟨ended, ⟨⟩⟩ := Option.ite_none_right_eq_some.mp received
        exact .ends running unread ended
      next =>
        obtain ⟨left, ⟨⟩⟩ := Option.ite_none_right_eq_some.mp received
        obtain ⟨events, left⟩ := Option.isSome_iff_exists.mp left
        exact .loses left running
    next => cases received
  | _ =>
    obtain rfl := Option.some.inj received
    exact .nothing fun _ => ⟨rfl, nofun⟩

theorem Line.Takes.keeps (takes : line.Takes move line') :
    line'.link = line.link ∧ line'.left = line.left := by
  cases takes <;> exact ⟨rfl, rfl⟩

theorem Line.step_own (stepped : line.step (.own move) = some line') :
    ∃ middle effects, line.Takes move middle ∧ line.link.step move = some (effects, line'.link) ∧
      line' = { middle with link := line'.link } := by
  cases received : line.receive move with
  | none => simp [step, received] at stepped
  | some middle =>
    have takes := Line.takes_of_receive received
    cases made : line.link.step move with
    | none => simp [step, received, takes.keeps.1, made] at stepped
    | some progress =>
      obtain rfl : { middle with link := progress.2 } = line' := by
        simpa [step, received, takes.keeps.1, made] using stepped
      exact ⟨middle, progress.1, takes, rfl, rfl⟩

/-- What a line keeps: its link tells what its feeds have brought. -/
structure Faithful (moves : List Move) (line : Line) : Prop where
  sound : line.link.Sound
  answers : line.link.Answers
  muted : line.link.Muted
  tells : line.link.Tells
  wired : Wired moves line.link
  unread : ∀ stream, (∀ channel, ¬ Connected moves channel stream) →
    (line.feeds stream).unread = (line.feeds stream).sent
  unheard : ∀ channel, (∀ stream, ¬ Connected moves channel stream) →
    received channel line.link.queued = []
  feeds : ∀ channel stream, Connected moves channel stream →
    received channel line.link.queued ++ (line.feeds stream).unread = (line.feeds stream).sent
  left : ∀ events, line.left = some events → events <+: line.link.queued
  -- Whoever leaves before the close is told does not hear how a channel ends.
  ended : ∀ channel, line.link.readers.get channel = .finished →
    line.left = none ∨ .closed ∈ line.events → ∃ stream, Connected moves channel stream ∧
      (line.feeds stream).ended.isSome ∧ (line.feeds stream).unread = []

theorem faithful_fresh (role : Role) : Faithful [] (.fresh role) where
  sound := sound_fresh role
  answers := rfl
  muted := nofun
  tells := tells_fresh role
  wired := wired_fresh role
  unread _ _ := rfl
  unheard _ _ := rfl
  feeds _ _ connected := absurd connected List.not_mem_nil
  left := nofun
  ended channel finished := by cases channel <;> cases finished

variable {moves : List Move}

theorem Faithful.front (faithful : Faithful moves line) : line.events <+: line.link.queued := by
  cases left : line.left with
  | none => simp [Line.events, left]
  | some events => simpa [Line.events, left] using faithful.left events left

theorem Faithful.modifyFeed {stream : Stream} {f : Feed → Feed} (faithful : Faithful moves line)
    (feeds : ∀ taken, taken ++ (line.feeds stream).unread = (line.feeds stream).sent →
      taken ++ (f (line.feeds stream)).unread = (f (line.feeds stream)).sent)
    (ended : (line.feeds stream).ended.isSome → (line.feeds stream).unread = [] →
      (f (line.feeds stream)).ended.isSome ∧ (f (line.feeds stream)).unread = []) :
    Faithful moves (line.modifyFeed stream f) := by
  refine { faithful with
    unread := fun other unconnected => ?_
    feeds := fun channel other connected => ?_
    ended := fun channel finished heard => ?_ }
  next =>
    have unread := faithful.unread other unconnected
    rw [Line.feeds_modifyFeed]
    split
    next same => exact feeds [] (same ▸ unread)
    next => exact unread
  next =>
    have before := faithful.feeds channel other connected
    rw [Line.feeds_modifyFeed]
    split
    next same => exact feeds _ (same ▸ before)
    next => exact before
  next =>
    obtain ⟨other, connected, gone, unread⟩ := faithful.ended channel finished heard
    refine ⟨other, connected, ?_⟩
    rw [Line.feeds_modifyFeed]
    split
    next same => exact ended (same ▸ gone) (same ▸ unread)
    next => exact ⟨gone, unread⟩

section Own

variable {middle : Line} {channel : Channel} {stream : Stream}

theorem Line.Takes.same (takes : line.Takes move middle) (stream : Stream) :
    (middle.feeds stream).sent = (line.feeds stream).sent ∧
      (middle.feeds stream).ended = (line.feeds stream).ended := by
  cases takes with
  | reads =>
    rw [feeds_modifyFeed]
    split
    next same => rw [same]; exact ⟨rfl, rfl⟩
    next => exact ⟨rfl, rfl⟩
  | ends | loses | nothing => exact ⟨rfl, rfl⟩

theorem Faithful.taken (faithful : Faithful moves line) (distinct : Distinct moves)
    (takes : line.Takes move middle) (connected : Connected moves channel stream) :
    (line.feeds stream).unread = move.reads channel ++ (middle.feeds stream).unread := by
  cases takes with
  | @reads other last bytes _ running front =>
    have same :=
      faithful.wired.same_iff distinct connected (faithful.wired.reads other last running)
    rw [Line.feeds_modifyFeed]
    split
    next here =>
      rw [Move.reads, if_pos (same.mpr here.symm), here]
      exact (List.prefix_iff_eq_append.mp front).symm
    next elsewhere =>
      rw [Move.reads, if_neg (mt same.mp (Ne.symm elsewhere)), List.nil_append]
  | ends | loses => rfl
  | nothing quiet => simp [(quiet channel).1]

theorem Faithful.untaken (faithful : Faithful moves line) (takes : line.Takes move middle)
    (unconnected : ∀ channel, ¬ Connected moves channel stream) :
    (middle.feeds stream).unread = (line.feeds stream).unread := by
  cases takes with
  | @reads other last _ _ running =>
    have here : stream ≠ last := by
      rintro rfl
      exact unconnected other (faithful.wired.reads other stream running)
    rw [Line.feeds_modifyFeed, if_neg here]
  | ends | loses | nothing => rfl

theorem Faithful.unread_on (faithful : Faithful moves line) (takes : line.Takes move middle)
    (unconnected : ∀ stream, ¬ Connected moves channel stream) : move.reads channel = [] := by
  cases takes with
  | @reads other last _ _ running =>
    have here : other ≠ channel := by
      rintro rfl
      exact unconnected last (faithful.wired.reads other last running)
    simp [Move.reads, here]
  | ends | loses => rfl
  | nothing quiet => exact (quiet channel).1

theorem Faithful.finishes (faithful : Faithful moves line)
    (takes : line.Takes (.readEnd channel) middle)
    (heard : line.left = none ∨ .closed ∈ line.events) :
    ∃ stream, Connected moves channel stream ∧ (line.feeds stream).ended.isSome ∧
      (line.feeds stream).unread = [] := by
  cases takes with
  | ends running unread ended =>
    exact ⟨_, faithful.wired.reads channel _ running, ended, unread⟩
  | loses left running =>
    -- The close is told by the reader that ends last.
    have closed := heard.resolve_left (by simp [left])
    have told := faithful.tells.notified_of_mem (faithful.front.subset closed)
    simp [faithful.tells.silent channel _ running] at told
  | nothing quiet => exact absurd rfl (quiet channel).2

theorem Faithful.own (faithful : Faithful moves line) (distinct : Distinct (moves ++ [move]))
    (stepped : line.step (.own move) = some line') : Faithful (moves ++ [move]) line' := by
  obtain ⟨middle, effects, takes, made, next⟩ := Line.step_own stepped
  have change := step_change made
  have wired := faithful.wired.change faithful.sound change
  have before {channel : Channel} {stream : Stream} (connected : Connected moves channel stream) :
      Connected (moves ++ [move]) channel stream := List.mem_append_left _ connected
  have feeds : line'.feeds = middle.feeds := by rw [next]
  have left : line'.left = line.left := by rw [next]; exact takes.keeps.2
  have queued := change.received
  refine ⟨faithful.sound.change change, faithful.answers.change change,
    faithful.muted.change faithful.answers change,
    faithful.tells.change faithful.answers faithful.muted change, wired,
    fun stream unconnected => ?_, fun channel unconnected => ?_, fun channel stream connected => ?_,
    fun events here => ?_, fun channel finished heard => ?_⟩
  next =>
    have unconnected channel := mt before (unconnected channel)
    rw [feeds, (takes.same stream).1, faithful.untaken takes unconnected]
    exact faithful.unread stream unconnected
  next =>
    have unconnected stream := mt before (unconnected stream)
    rw [queued, faithful.unheard channel unconnected, faithful.unread_on takes unconnected]
    rfl
  next =>
    rw [feeds, (takes.same stream).1, queued]
    by_cases early : Connected moves channel stream
    next =>
      rw [List.append_assoc, ← faithful.taken distinct.of_append takes early]
      exact faithful.feeds channel stream early
    next =>
      -- The connection has just come in, so nothing was read on it or on another one before.
      have others (other : Stream) : ¬ Connected moves channel other := fun connected' =>
        early (wired.once channel other stream (before connected') connected ▸ connected')
      have elsewhere (other : Channel) : ¬ Connected moves other stream := fun connected' => by
        obtain rfl := (wired.same_iff distinct connected (before connected')).mpr rfl
        exact early connected'
      rw [faithful.unheard channel others, faithful.unread_on takes others,
        faithful.untaken takes elsewhere]
      exact faithful.unread stream elsewhere
  next =>
    exact (faithful.left events (left ▸ here)).trans change.queued
  next =>
    have heard : line.left = none ∨ .closed ∈ line.events := by
      cases gone : line.left with
      | none => exact .inl rfl
      | some events =>
        have same : line'.events = line.events := by simp [Line.events, left, gone]
        exact .inr (same ▸ heard.resolve_left (by simp [left, gone]))
    have through : ∃ stream, Connected moves channel stream ∧ (line.feeds stream).ended.isSome ∧
        (line.feeds stream).unread = [] := by
      rcases change.finished finished with already | rfl
      next => exact faithful.ended channel already heard
      next => exact faithful.finishes takes heard
    obtain ⟨stream, connected, ended, unread⟩ := through
    have taken := faithful.taken distinct.of_append takes connected
    rw [unread] at taken
    rw [feeds]
    exact ⟨stream, before connected, (takes.same stream).2 ▸ ended,
      (List.append_eq_nil_iff.mp taken.symm).2⟩

end Own

theorem Faithful.step {act : Line.Act} (faithful : Faithful moves line)
    (distinct : Distinct (moves ++ Line.moves [act])) (stepped : line.step act = some line') :
    Faithful (moves ++ Line.moves [act]) line' := by
  have peer {next : Line} (kept : Faithful moves next) : Faithful (moves ++ []) next := by
    rwa [List.append_nil]
  cases act with
  | sends stream bytes =>
    obtain ⟨open', ⟨⟩⟩ := Option.ite_none_right_eq_some.mp stepped
    refine peer (faithful.modifyFeed (fun taken whole => ?_) fun ended => ?_)
    next => rw [← whole, List.append_assoc]
    next => simp [Option.isNone_iff_eq_none.mp open'] at ended
  | ends stream result =>
    obtain ⟨_, ⟨⟩⟩ := Option.ite_none_right_eq_some.mp stepped
    refine peer (faithful.modifyFeed (fun taken whole => ?_) fun _ unread => ?_)
    next => exact whole
    next => exact ⟨rfl, unread⟩
  | leaves =>
    obtain ⟨⟨-, there⟩, ⟨⟩⟩ := Option.ite_none_right_eq_some.mp stepped
    refine peer { faithful with
      left := fun events left => ?_
      ended := fun channel finished _ => ?_ }
    next =>
      obtain rfl := Option.some.inj left
      exact List.prefix_rfl
    next =>
      exact faithful.ended channel finished (.inl (Option.isNone_iff_eq_none.mp there))
  | own move => exact faithful.own distinct stepped

theorem Line.run_cons {act : Line.Act} {acts : List Line.Act}
    (ran : line.run (act :: acts) = some line') :
    ∃ next, line.step act = some next ∧ next.run acts = some line' := by
  cases stepped : line.step act with
  | none => simp [run, stepped] at ran
  | some next => exact ⟨next, rfl, by simpa [run, stepped] using ran⟩

theorem faithful_of_run {acts : List Line.Act} (faithful : Faithful moves line)
    (distinct : Distinct (moves ++ Line.moves acts)) (ran : line.run acts = some line') :
    Faithful (moves ++ Line.moves acts) line' := by
  induction acts generalizing line moves with
  | nil =>
    obtain rfl : line = line' := by simpa [Line.run] using ran
    simpa [Line.moves] using faithful
  | cons act acts ih =>
    obtain ⟨next, stepped, ran⟩ := Line.run_cons ran
    have split : Line.moves (act :: acts) = Line.moves [act] ++ Line.moves acts := by
      rw [Line.moves, ← List.singleton_append, List.filterMap_append]
      rfl
    rw [split, ← List.append_assoc] at distinct ⊢
    exact ih (faithful.step distinct.of_append stepped) distinct ran

theorem run_without {motive : Link → Prop} {excluded : Move} {acts : List Line.Act}
    (keeps : ∀ {link move effects link'}, motive link → move ≠ excluded →
      Change link move effects link' → motive link')
    (start : motive line.link) (ran : line.run acts = some line')
    (never : .own excluded ∉ acts) : motive line'.link := by
  -- What the peer does leaves the link as it is.
  induction acts generalizing line with
  | nil =>
    obtain rfl : line = line' := by simpa [Line.run] using ran
    exact start
  | cons act acts ih =>
    obtain ⟨next, stepped, ran⟩ := Line.run_cons ran
    refine ih ?_ ran fun member => never (List.mem_cons_of_mem _ member)
    cases act with
    | sends | ends | leaves =>
      obtain ⟨_, ⟨⟩⟩ := Option.ite_none_right_eq_some.mp stepped
      exact start
    | own move =>
      obtain ⟨_, _, _, made, _⟩ := Line.step_own stepped
      exact keeps start (fun same => never (by simp [same])) (step_change made)

theorem Change.unresumed (absent : link.readers.control = .absent) (other : move ≠ .resume)
    (change : Change link move effects link') : link'.readers.control = .absent := by
  cases change with
  | resumes => exact absurd rfl other
  | @readEnds channel _ running | @lastReadEnds channel _ running =>
    cases channel with
    | control => simp [Channels.get, absent] at running
    | data => exact absent
  | closesDialing | closesAlone => simp [released, absent, Reader.abort]
  | _ => exact absent

theorem Change.unasked (open' : link.closing = false) (other : move ≠ .close)
    (change : Change link move effects link') : link'.closing = false := by
  cases change with
  | closesDialing | closesWaiting => exact absurd rfl other
  | _ => exact open'

theorem Faithful.closed (faithful : Faithful moves line) (closed : .closed ∈ line.events) :
    line.events = line.link.queued := by
  obtain ⟨chunks, queued, fits⟩ := faithful.tells.queued
  have front := faithful.front
  have told := faithful.tells.notified_of_mem (front.subset closed)
  rw [queued, if_pos told] at front ⊢
  rcases List.prefix_concat_iff.mp front with whole | early
  next => exact whole
  next => exact absurd (fits _ (early.subset closed)) id

theorem Faithful.queued (faithful : Faithful moves line) :
    ∃ chunks, (line.events = chunks ∨ line.events = chunks ++ [.closed]) ∧
      ∀ event ∈ chunks, event.Fits := by
  obtain ⟨chunks, queued, fits⟩ := faithful.tells.queued
  by_cases closed : .closed ∈ line.events
  next =>
    have told := faithful.tells.notified_of_mem (faithful.front.subset closed)
    rw [if_pos told] at queued
    exact ⟨chunks, .inr (queued ▸ faithful.closed closed), fits⟩
  next =>
    refine ⟨line.events, .inl rfl, fun event member => ?_⟩
    have queued' := faithful.front.subset member
    rw [queued] at queued'
    rcases List.mem_append.mp queued' with chunk | last
    next => exact fits event chunk
    next =>
      split at last
      next =>
        obtain rfl := List.mem_singleton.mp last
        exact absurd member closed
      next => cases last

theorem received_mono {first second : List Event} (front : first <+: second) (channel : Channel) :
    received channel first <+: received channel second := by
  obtain ⟨rest, rfl⟩ := front
  rw [received_append]
  exact List.prefix_append ..

theorem events_follow_peer {role : Role} {acts : List Line.Act} {line : Line}
    (ran : (Line.fresh role).run acts = some line)
    (distinct : ∀ stream, .own (.connected .control stream) ∈ acts →
      .own (.connected .data stream) ∉ acts) :
    (.own .resume ∉ acts → line.events <+: [.closed]) ∧
    (∃ chunks, (line.events = chunks ∨ line.events = chunks ++ [.closed]) ∧
      ∀ event ∈ chunks, ∃ channel bytes, event = .chunk channel bytes ∧
        1 ≤ bytes.length ∧ bytes.length ≤ 16384) ∧
    (∀ channel stream, .own (.connected channel stream) ∈ acts →
      received channel line.events <+: (line.feeds stream).sent) ∧
    (∀ channel, received channel line.events ≠ [] →
      ∃ stream, .own (.connected channel stream) ∈ acts) ∧
    (.closed ∈ line.events → .own .close ∉ acts → ∀ channel, ∃ stream,
      .own (.connected channel stream) ∈ acts ∧ (line.feeds stream).ended.isSome ∧
        received channel line.events = (line.feeds stream).sent) ∧
    (∀ channel other line', other ≠ channel →
      line.step (.own (.readEnd channel)) = some line' →
      line.link.readers.get other ≠ .finished →
        line'.link.queued = line.link.queued ∧ line'.link.state = line.link.state) ∧
    (.closed ∈ line.events → line.link.state = .closed) := by
  have faithful : Faithful (Line.moves acts) line := by
    refine faithful_of_run (faithful_fresh role) (fun stream => ?_) ran
    rw [List.nil_append, Line.connected_moves, Line.connected_moves]
    exact distinct stream
  have tells := faithful.tells
  have front := faithful.front
  simp only [← Line.connected_moves]
  refine ⟨fun never => ?_, ?_, fun channel stream connected => ?_, fun channel heard => ?_,
    fun closed never channel => ?_, fun channel other line' differs stepped more => ?_,
    fun closed => tells.state (tells.notified_of_mem (front.subset closed))⟩
  next => exact front.trans (tells.unresumed (run_without Change.unresumed rfl ran never))
  next =>
    obtain ⟨chunks, events, fits⟩ := faithful.queued
    refine ⟨chunks, events, fun event member => ?_⟩
    have fits := fits event member
    cases event with
    | chunk channel bytes => exact ⟨channel, bytes, rfl, List.length_pos_iff.mpr fits.1, fits.2⟩
    | closed => exact absurd fits id
  next =>
    exact (received_mono front channel).trans ⟨_, faithful.feeds channel stream connected⟩
  next =>
    by_contra unconnected
    have nothing := received_mono front channel
    rw [faithful.unheard channel (not_exists.mp unconnected)] at nothing
    exact heard (List.prefix_nil.mp nothing)
  next =>
    have open' := run_without (motive := fun link => link.closing = false) Change.unasked rfl ran
      never
    have finished := tells.finished (tells.notified_of_mem (front.subset closed)) open' channel
    obtain ⟨stream, connected, ended, unread⟩ := faithful.ended channel finished (.inr closed)
    have feeds := faithful.feeds channel stream connected
    rw [unread, List.append_nil, ← faithful.closed closed] at feeds
    exact ⟨stream, connected, ended, feeds⟩
  next =>
    obtain ⟨_, _, _, made, _⟩ := Line.step_own stepped
    exact tells.alone faithful.muted (step_change made) differs more

end Lines

-- The peer sends before anything is read, and ends both channels, one of them with a fault.
def talk : List Line.Act :=
  [.own (.connect 0), .own (.connected .control 0), .sends 1 [1, 2, 3],
    .own (.connected .data 1), .own .queueUp, .own .store, .own .queueUp, .own .store,
    .own .resume, .own (.read .data [1, 2]), .ends 0 (.error ⟨.connectionReset, none⟩),
    .own (.readEnd .control), .own (.read .data [3]), .ends 1 (.ok ()), .own (.readEnd .data)]

theorem talk_is_told : ∃ line, (Line.fresh .dialing).run talk = some line ∧
    line.events = [.chunk .data [1, 2], .chunk .data [3], .closed] ∧
    (line.feeds 1).ended.isSome ∧ received .data line.events = (line.feeds 1).sent ∧
    (line.feeds 0).ended.isSome ∧ received .control line.events = (line.feeds 0).sent := by
  obtain ⟨line, ran, events⟩ : ∃ line, (Line.fresh .dialing).run talk = some line ∧
      line.events = [.chunk .data [1, 2], .chunk .data [3], .closed] := ⟨_, rfl, rfl⟩
  obtain ⟨-, -, -, -, complete, -⟩ := events_follow_peer ran (by simp [talk])
  have complete := complete (by simp [events]) (by simp [talk])
  obtain ⟨data, onData, dataEnded, dataSent⟩ := complete .data
  obtain ⟨control, onControl, controlEnded, controlSent⟩ := complete .control
  obtain rfl : data = 1 := by simpa [talk] using onData
  obtain rfl : control = 0 := by simpa [talk] using onControl
  exact ⟨line, ran, events, dataEnded, dataSent, controlEnded, controlSent⟩

end TpmRelay.Link
