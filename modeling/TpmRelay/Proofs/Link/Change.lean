import TpmRelay.Link.Step

set_option autoImplicit false

namespace TpmRelay.Link

-- What a link holds on to until it lets go of it.
inductive Resource where
  | half (stream : Stream) (half : Half)
  | listener (listener : Listener)
  | helper
  deriving DecidableEq, Repr

def halves (stream : Stream) : List Resource :=
  [.half stream .reader, .half stream .writer]

def Move.acquires : Move → List Resource
  | bound _ listener _ => [.listener listener]
  | connected _ stream => halves stream
  | _ => []

def Effect.acquires : Effect → List Resource
  | launch _ (.ok ()) => [.helper]
  | _ => []

def Effect.releases : Effect → List Resource
  | drop stream half => [.half stream half]
  | unlisten listener => [.listener listener]
  | terminate => [.helper]
  | _ => []

def Establishing.held : Establishing → List Resource
  | absent => []
  | binding _ _ bound => bound.present.map .listener
  | making _ listeners made =>
    ((listeners.map Channels.toList).getD []).map .listener ++ made.present.flatMap halves
  | storing _ .control made => halves made.control ++ halves made.data
  | storing _ .data made => .half made.control .reader :: halves made.data
  | abandoning _ _ left => left.flatMap halves

def Reader.held : Reader → List Resource
  | running stream => [.half stream .reader]
  | absent | finished | aborted => []

def Closer.held : Closer → List Resource
  | shutting _ stream => [.half stream .writer]
  | absent | waiting | locking _ | stopping | returned => []

def unlocked (link : Link) : List Resource :=
  ((link.listeners.map Channels.toList).getD []).map .listener ++
    link.readers.control.held ++ link.readers.data.held ++
    ((link.paused.map Channels.toList).getD []).map (.half · .reader)

def held (link : Link) : List Resource :=
  link.establishing.held ++ link.unlocked ++ link.writers.present.map (.half · .writer) ++
    link.closer.held ++ bif link.helper then [.helper] else []

def Reader.abort : Reader → Reader
  | running _ => aborted
  | other => other

def released (link : Link) : Link :=
  { link with
    listeners := none
    readers := ⟨link.readers.control.abort, link.readers.data.abort⟩
    paused := none
    closer := .locking .control }

def nextGate (link : Link) : List Waiter :=
  match link.role with
  | .dialing => link.gate
  | .waiting => link.gate.tail

theorem leaveGate_eq (link : Link) : link.leaveGate = { link with gate := link.nextGate } := by
  rcases link with ⟨_ | _⟩ <;> rfl

def telling (link : Link) : List Effect :=
  if link.notified then [] else [.queue .closed]

def told (link : Link) : Link :=
  { link with
    notified := true
    queued := if link.notified then link.queued else link.queued ++ [.closed] }

theorem notify_eq (link : Link) : link.notify = (link.telling, link.told) := by
  obtain notified | notified := Bool.eq_false_or_eq_true link.notified
  next => simp [notify, telling, told, ← notified]
  next => simp [notify, telling, told, notified, enqueue]

def Move.waits : Move → Bool
  | listen .. | cancel _ | queueUp | write .. | begin _ | put .. | putFails .. | flush .. | abort ..
  | forget .. | closeQueueUp => true
  | _ => false

def Move.settles : Move → Bool
  | bound .. | unbound .. | refused .. | notice | abandon _ | cancel _ => true
  | _ => false

def Effect.writes : Effect → Bool
  | put .. | wrote .. => true
  | _ => false

def Effect.disposes : Effect → Bool
  | drop .. | unlisten _ | shut _ | launch _ (.error _) | established .. => true
  | _ => false

inductive Passes (link : Link) (channel : Channel) : Move → List Effect → Prop where
  | unconnected (locking : link.closer = .locking channel)
      (nothing : link.writers.get channel = none) : Passes link channel .closeLock []
  | shut {result : Except Fault Unit} {stream : Stream}
      (shutting : link.closer = .shutting channel stream) :
      Passes link channel (.closeShut result) [.shut stream, .drop stream .writer]
  | unshut {result : Except Fault Unit} {stream : Stream}
      (shutting : link.closer = .shutting channel stream) :
      Passes link channel (.closeShut result) [.drop stream .writer]

def Establishing.abandons : Establishing → Bool
  | abandoning .. => true
  | absent | binding .. | making .. | storing .. => false

-- A move that puts bytes on a connection does nothing else.
inductive Puts (link : Link) : Move → List Effect → Stream → Bytes → Prop where
  | puts {channel : Channel} {count : Nat} {stream : Stream} {bytes : Bytes}
      (open' : link.closing = false) (stored : link.writers.get channel = some stream) :
      Puts link (.put channel count) [.put stream bytes] stream bytes

inductive Change (link : Link) : Move → List Effect → Link → Prop where
  | waits {move : Move} {effects : List Effect} {gate : List Waiter}
      {locks : Channels (List Holder)} (waits : move.waits)
      (quiet : ∀ effect ∈ effects, effect.writes)
      -- The call at work stays the first of the queue.
      (first : ∀ call frontend, link.establishing.owner? = some call →
        link.gate.head? = some (.listen call frontend) →
          gate.head? = some (.listen call frontend))
      (listens : link.role = .dialing → ∀ waiter ∈ gate, waiter ∈ link.gate ∨ waiter = .close)
      (puts : ∀ stream bytes, .put stream bytes ∈ effects → Puts link move effects stream bytes) :
      Change link move effects { link with gate, locks }
  | late {call : Nat} {error : Error} :
      Change link (.connect call) [.established call (.error error)] link
  | lateTurn {call : Nat} {frontend : String} {error : Error}
      (first : link.gate.head? = some (.listen call frontend))
      (absent : link.establishing = .absent) :
      Change link .turn [.established call (.error error)]
        { link with gate := link.nextGate, establishing := .absent }
  | connects {call : Nat} (role : link.role = .dialing) (idle : link.state = .idle) :
      Change link (.connect call) [] { link with
        state := .establishing ⟨false, false⟩, establishing := .making call none ⟨none, none⟩ }
  | turns {call : Nat} {frontend : String}
      (first : link.gate.head? = some (.listen call frontend))
      (absent : link.establishing = .absent) (idle : link.state = .idle) :
      Change link .turn [] { link with
        state := .establishing ⟨false, false⟩
        establishing := .binding call frontend ⟨none, none⟩ }
  | binds {call : Nat} {frontend : String} {bound : Channels (Option Listener)} {channel : Channel}
      {listener : Listener} {launching : Launching}
      (binding : link.establishing = .binding call frontend bound)
      (missing : bound.get channel = none) :
      Change link (.bound channel listener launching) [] { link with
        establishing := .binding call frontend (bound.set channel (some listener)) }
  | launches {call : Nat} {frontend : String} {bound : Channels (Option Listener)}
      {channel : Channel} {listener control data : Listener} {task : HelperTask}
      (binding : link.establishing = .binding call frontend bound)
      (missing : bound.get channel = none)
      (both : bound.set channel (some listener) = ⟨some control, some data⟩) :
      Change link (.bound channel listener .started) [.launch task (.ok ())] { link with
        helper := true
        establishing := .making call (some ⟨control, data⟩) ⟨none, none⟩ }
  | connectsOne {call : Nat} {listeners : Option (Channels Listener)}
      {made : Channels (Option Stream)} {channel : Channel} {stream : Stream}
      (making : link.establishing = .making call listeners made) (open' : link.closing = false)
      (missing : made.get channel = none) :
      Change link (.connected channel stream) [] { link with
        state := link.state.markMade channel
        establishing := .making call listeners (made.set channel (some stream)) }
  | connectsBoth {call : Nat} {listeners : Option (Channels Listener)}
      {made : Channels (Option Stream)} {channel : Channel} {stream control data : Stream}
      (making : link.establishing = .making call listeners made) (open' : link.closing = false)
      (missing : made.get channel = none)
      (both : made.set channel (some stream) = ⟨some control, some data⟩) :
      Change link (.connected channel stream) [] { link with
        state := link.state.markMade channel
        listeners
        establishing := .storing call .control ⟨control, data⟩ }
  | abandons {move : Move} {call : Nat} {error : Error} {listeners : Channels Listener}
      {made : Channels (Option Stream)} (settles : move.settles) (fresh : move.acquires = [])
      (making : link.establishing = .making call (some listeners) made) :
      Change link move (unlistenAll listeners.toList) { link with
        state := link.state.fail, establishing := .abandoning call error made.present }
  | abandonsOne {call : Nat} {error : Error} {result : Except Fault Unit} {effects : List Effect}
      {stream : Stream} {left : List Stream}
      (abandoning : link.establishing = .abandoning call error (stream :: left))
      (releases : effects.flatMap Effect.releases = halves stream)
      (only : ∀ effect ∈ effects, effect.disposes) :
      Change link (.abandon result) effects { link with
        establishing := .abandoning call error left }
  | settles {move : Move} {effects : List Effect} {state : State} {locks : Channels (List Holder)}
      (busy : link.establishing ≠ .absent) (settles : move.settles)
      (releases : (effects.flatMap Effect.releases).Perm (move.acquires ++ link.establishing.held))
      (only : ∀ effect ∈ effects, effect.disposes)
      (failed : state = link.state.fail ∨ state = link.state)
      (shuts : ∀ stream, .shut stream ∈ effects → link.establishing.abandons) :
      Change link move effects { link with
        gate := link.nextGate, state, locks, establishing := .absent }
  | storesControl {call : Nat} {made : Channels Stream} {locks : Channels (List Holder)}
      (storing : link.establishing = .storing call .control made) :
      Change link .store [] { link with
        locks
        writers := link.writers.set .control (some made.control)
        establishing := .storing call .data made }
  | storesData {call : Nat} {made : Channels Stream} {locks : Channels (List Holder)}
      {state : State} {result : Except Error Unit}
      (storing : link.establishing = .storing call .data made)
      (ready : state = link.state ∨ (∃ made, link.state = .establishing made) ∧ state = .ready) :
      Change link .store [.established call result] { link with
        gate := link.nextGate
        locks
        state
        writers := link.writers.set .data (some made.data)
        paused := some made
        establishing := .absent }
  | takesEvents {given : Bool} :
      Change link .takeEvents [.gaveEvents given] { link with eventsTaken := true }
  | resumes {made : Channels Stream} (ready : link.state = .ready)
      (paused : link.paused = some made) :
      Change link .resume [.resumed (.ok ())] { link with
        paused := none
        readers := ⟨.running made.control, .running made.data⟩
        openReaders := 2 }
  | resumesNothing {result : Except Error Unit} : Change link .resume [.resumed result] link
  | reads {channel : Channel} {bytes : Bytes} {stream : Stream}
      (running : link.readers.get channel = .running stream)
      (some' : bytes ≠ []) (limited : bytes.length ≤ chunkLimit) :
      Change link (.read channel bytes) [.queue (.chunk channel bytes)] { link with
        queued := link.queued ++ [.chunk channel bytes] }
  | readEnds {channel : Channel} {stream : Stream}
      (running : link.readers.get channel = .running stream) (more : link.openReaders - 1 ≠ 0) :
      Change link (.readEnd channel) [.drop stream .reader] { link with
        readers := link.readers.set channel .finished
        openReaders := link.openReaders - 1 }
  | lastReadEnds {channel : Channel} {stream : Stream}
      (running : link.readers.get channel = .running stream) (last : link.openReaders - 1 = 0) :
      Change link (.readEnd channel) (link.telling ++ [.drop stream .reader]) { link.told with
        state := .closed
        readers := link.readers.set channel .finished
        openReaders := link.openReaders - 1 }
  | closesAgain (closing : link.closing = true) : Change link .close [.closed] link
  | closesDialing {effects : List Effect} (open' : link.closing = false)
      (role : link.role = .dialing)
      (releases : effects.flatMap Effect.releases = link.unlocked)
      (only : ∀ effect ∈ effects, effect.disposes) :
      Change link .close effects { link with closing := true, state := .closed }.released
  | closesWaiting (open' : link.closing = false) (role : link.role = .waiting) :
      Change link .close [] { link with closing := true, state := .closed, closer := .waiting }
  | closesAlone {effects : List Effect} {gate : List Waiter} (waiting : link.closer = .waiting)
      (first : link.gate = .close :: gate)
      (releases : effects.flatMap Effect.releases = link.unlocked)
      (only : ∀ effect ∈ effects, effect.disposes) :
      Change link .closeAlone effects { link with gate }.released
  | closeLocks {channel : Channel} {stream : Stream} (locking : link.closer = .locking channel)
      (stored : link.writers.get channel = some stream) :
      Change link .closeLock [] { link with
        writers := link.writers.set channel none, closer := .shutting channel stream }
  | passesControl {move : Move} {effects : List Effect} {locks : Channels (List Holder)}
      (passes : Passes link .control move effects) :
      Change link move effects { link with locks, closer := .locking .data }
  | terminates {move : Move} {effects : List Effect} {locks : Channels (List Holder)}
      (passes : Passes link .data move effects) (helper : link.helper = true) :
      Change link move (effects ++ [.terminate]) { link with
        locks, helper := false, closer := .stopping }
  | returns {move : Move} {effects : List Effect} {locks : Channels (List Holder)}
      (passes : Passes link .data move effects) (helper : link.helper = false) :
      Change link move (effects ++ link.telling ++ [.closed]) { link.told with
        locks, closer := .returned }
  | stops {result : Except Fault Unit} (stopping : link.closer = .stopping) :
      Change link (.stopped result) (link.telling ++ [.closed]) { link.told with
        closer := .returned }

section Disposal

variable (streams : List Stream) (listeners : List Listener)

@[simp] theorem releases_unlistenAll :
    (unlistenAll listeners).flatMap Effect.releases = listeners.map .listener := by
  induction listeners with
  | nil => rfl
  | cons listener listeners ih =>
    rw [List.map_cons, ← ih]
    rfl

@[simp] theorem releases_dropBoth (stream : Stream) :
    (dropBoth stream).flatMap Effect.releases = halves stream := rfl

@[simp] theorem releases_dropAll :
    (streams.flatMap dropBoth).flatMap Effect.releases = streams.flatMap halves := by
  simp [List.flatMap_assoc]

theorem disposes_unlistenAll : ∀ effect ∈ unlistenAll listeners, effect.disposes := by
  simp [unlistenAll, Effect.disposes]

theorem disposes_dropAll : ∀ effect ∈ streams.flatMap dropBoth, effect.disposes := by
  intro effect member
  obtain ⟨stream, -, dropped⟩ := List.mem_flatMap.mp member
  obtain rfl | rfl : effect = .drop stream .reader ∨ effect = .drop stream .writer := by
    simpa [dropBoth] using dropped
  · rfl
  · rfl

end Disposal

section Inversion

variable {link : Link} {move : Move} {call : Nat} {frontend : String} {error : Error}

theorem settles_change (disposal : List Effect) (busy : link.establishing ≠ .absent)
    (settles : move.settles)
    (releases : (disposal.flatMap Effect.releases).Perm (move.acquires ++ link.establishing.held))
    (only : ∀ effect ∈ disposal, effect.disposes)
    (shuts : ∀ stream, .shut stream ∈ disposal → link.establishing.abandons) (last : Link)
    (same : last = link.fail ∨ last = link) :
    Change link move (disposal ++ (last.settleCall call (.error error)).1)
      (last.settleCall call (.error error)).2 := by
  have disposes : ∀ effect ∈ disposal ++ [.established call (.error error)], effect.disposes := by
    intro effect member
    rcases List.mem_append.mp member with disposed | settled
    next => exact only effect disposed
    next => simp_all [Effect.disposes]
  have all : ((disposal ++ [Effect.established call (.error error)]).flatMap
      Effect.releases).Perm (move.acquires ++ link.establishing.held) := by
    simpa [Effect.releases] using releases
  have shut : ∀ stream, .shut stream ∈ disposal ++ [.established call (.error error)] →
      link.establishing.abandons := fun stream member => shuts stream (by simpa using member)
  rcases same with rfl | rfl
  next =>
    simp only [settleCall, leaveGate_eq]
    exact .settles busy settles all disposes (.inl rfl) shut
  next =>
    simp only [settleCall, leaveGate_eq]
    exact .settles busy settles all disposes (.inr rfl) shut

theorem launch_change {bound : Channels (Option Listener)} {channel : Channel}
    {listener control data : Listener} (launching : Launching)
    (binding : link.establishing = .binding call frontend bound)
    (missing : bound.get channel = none)
    (both : bound.set channel (some listener) = ⟨some control, some data⟩) :
    Change link (.bound channel listener launching)
      (link.launch call frontend ⟨control, data⟩ launching).1
      (link.launch call frontend ⟨control, data⟩ launching).2 := by
  have busy : link.establishing ≠ .absent := by simp [binding]
  have all : [Resource.listener control, .listener data].Perm
      (.listener listener :: bound.present.map .listener) := by
    have present := Channels.present_set missing listener
    rw [both] at present
    exact present.map Resource.listener
  cases launching with
  | unplaced fault =>
    refine settles_change _ busy rfl ?_ (disposes_unlistenAll _) (by simp [unlistenAll]) link.fail
      (.inl rfl)
    rw [releases_unlistenAll, binding]
    exact all
  | refused fault =>
    refine settles_change (.launch _ (.error fault) :: unlistenAll _) busy rfl ?_ ?_
      (by simp [unlistenAll]) link.fail (.inl rfl)
    next =>
      rw [List.flatMap_cons, releases_unlistenAll, binding]
      exact all
    next => exact List.forall_mem_cons.mpr ⟨rfl, disposes_unlistenAll _⟩
  | started => exact .launches binding missing both

theorem bind_change {bound : Channels (Option Listener)} {channel : Channel} (listener : Listener)
    (launching : Launching) (binding : link.establishing = .binding call frontend bound)
    (missing : bound.get channel = none) :
    Change link (.bound channel listener launching)
      (link.bind call frontend bound channel listener launching).1
      (link.bind call frontend bound channel listener launching).2 := by
  simp only [bind]
  split
  next control data first second =>
    refine launch_change launching binding missing ?_
    rw [← first, ← second]
  next => exact .binds binding missing

theorem giveUp_change {listeners : Option (Channels Listener)} {made : Channels (Option Stream)}
    (settles : move.settles) (fresh : move.acquires = [])
    (making : link.establishing = .making call listeners made) :
    Change link move (link.giveUp call listeners made error).1
      (link.giveUp call listeners made error).2 := by
  have busy : link.establishing ≠ .absent := by simp [making]
  simp only [giveUp]
  split
  next =>
    refine settles_change _ busy settles ?_ (disposes_dropAll _) (by simp [dropBoth]) link.fail
      (.inl rfl)
    rw [releases_dropAll, fresh, making]
    rfl
  next nothing =>
    refine settles_change _ busy settles ?_ (disposes_unlistenAll _) (by simp [unlistenAll])
      link.fail (.inl rfl)
    rw [releases_unlistenAll, fresh, making]
    simp [Establishing.held, nothing]
  next => exact .abandons settles fresh making

theorem connected_change {listeners : Option (Channels Listener)}
    {made : Channels (Option Stream)} {channel : Channel} (stream : Stream)
    (making : link.establishing = .making call listeners made) (heedless : link.closing = false)
    (missing : made.get channel = none) :
    Change link (.connected channel stream) []
      (link.connected call listeners made channel stream) := by
  simp only [connected]
  split
  next control data first second =>
    refine .connectsBoth making heedless missing ?_
    rw [← first, ← second]
  next => exact .connectsOne making heedless missing

theorem store_change {channel : Channel} {made : Channels Stream}
    (storing : link.establishing = .storing call channel made) :
    Change link .store (link.store call channel made).1 (link.store call channel made).2 := by
  cases channel with
  | control => exact .storesControl storing
  | data =>
    simp only [store, popLock, settleCall, leaveGate_eq]
    split
    next ready => exact .storesData storing (.inr ⟨⟨_, ready⟩, rfl⟩)
    next => exact .storesData storing (.inl rfl)
    next => exact .storesData storing (.inl rfl)

theorem abandon_change {left : List Stream} (result : Except Fault Unit)
    (abandoning : link.establishing = .abandoning call error left) :
    Change link (.abandon result) (link.abandon call error result left).1
      (link.abandon call error result left).2 := by
  have busy : link.establishing ≠ .absent := by simp [abandoning]
  have abandons : link.establishing.abandons := by simp [abandoning, Establishing.abandons]
  cases left with
  | nil =>
    refine settles_change [] busy rfl ?_ (by simp) (fun _ _ => abandons) link (.inr rfl)
    simp [abandoning, Establishing.held, Move.acquires]
  | cons stream left =>
    cases left with
    | nil =>
      cases result with
      | ok =>
        refine settles_change (.shut stream :: dropBoth stream) busy rfl ?_ ?_
          (fun _ _ => abandons) link (.inr rfl)
        next => simp [abandoning, Establishing.held, Move.acquires, Effect.releases]
        next => simp [dropBoth, Effect.disposes]
      | error =>
        refine settles_change (dropBoth stream) busy rfl ?_ ?_ (fun _ _ => abandons) link
          (.inr rfl)
        next => simp [abandoning, Establishing.held, Move.acquires]
        next => simp [dropBoth, Effect.disposes]
    | cons next left =>
      refine .abandonsOne abandoning ?_ ?_
      next => cases result <;> rfl
      next => cases result <;> simp [abandon, dropBoth, Effect.disposes]

theorem cancel_change {progress : Progress} (cancelled : link.cancel call = some progress) :
    Change link (.cancel call) progress.1 progress.2 := by
  simp only [cancel, leaveGate_eq] at cancelled
  split at cancelled
  next owner =>
    split at cancelled
    next => simp at cancelled
    next binding =>
      obtain rfl := Option.some.inj cancelled
      refine .settles (by simp [binding]) rfl ?_ (disposes_unlistenAll _) (.inr rfl)
        (by simp [unlistenAll])
      rw [releases_unlistenAll, binding]
      rfl
    next listeners made making =>
      obtain rfl := Option.some.inj cancelled
      refine .settles (by simp [making]) rfl ?_ ?_ (.inr rfl) (by simp [dropBoth, unlistenAll])
      next =>
        rw [List.flatMap_append, releases_dropAll, releases_unlistenAll, making]
        exact List.perm_append_comm
      next =>
        intro effect member
        rcases List.mem_append.mp member with dropped | unlistened
        next => exact disposes_dropAll _ effect dropped
        next => exact disposes_unlistenAll _ effect unlistened
    next storing =>
      obtain rfl := Option.some.inj cancelled
      refine .settles (by simp [storing]) rfl ?_ ?_ (.inr rfl) (by simp [dropBoth])
      next => simp [storing, Establishing.held, Move.acquires]
      next => simp [dropBoth, Effect.disposes]
    next storing =>
      obtain rfl := Option.some.inj cancelled
      refine .settles (by simp [storing]) rfl ?_ ?_ (.inr rfl) (by simp [dropBoth])
      next => simp [storing, Establishing.held, Move.acquires, Effect.releases]
      next => simp [dropBoth, Effect.disposes]
    next abandoning =>
      obtain rfl := Option.some.inj cancelled
      refine .settles (by simp [abandoning]) rfl ?_ (disposes_dropAll _) (.inr rfl)
        (by simp [dropBoth])
      rw [releases_dropAll, abandoning]
      rfl
  next other =>
    split at cancelled
    next =>
      obtain rfl := Option.some.inj cancelled
      refine .waits rfl (by simp) (fun owner frontend owns first => ?_)
        (fun _ waiter member => .inl (List.mem_filter.mp member).1) (by simp)
      -- The call at work is another one, so it is not among those that leave.
      obtain ⟨rest, queue⟩ := List.head?_eq_some_iff.mp first
      have kept : owner ≠ call := fun same => other (same ▸ owns)
      simp [queue, kept]
    next => simp at cancelled

theorem beginEstablishing_cases (link : Link) :
    (link.state = .idle ∧
        link.beginEstablishing = .ok { link with state := .establishing ⟨false, false⟩ }) ∨
      ∃ error, link.beginEstablishing = .error error := by
  unfold beginEstablishing
  split
  next idle => exact .inl ⟨idle, rfl⟩
  next => exact .inr ⟨_, rfl⟩
  next => exact .inr ⟨_, rfl⟩

theorem connect_change (call : Nat) (role : link.role = .dialing) :
    Change link (.connect call) (link.connect call).1 (link.connect call).2 := by
  rcases link.beginEstablishing_cases with ⟨idle, begun⟩ | ⟨error, late⟩
  next =>
    rw [connect, begun]
    exact .connects role idle
  next =>
    rw [connect, late]
    exact .late

theorem turn_change (first : link.gate.head? = some (.listen call frontend))
    (absent : link.establishing = .absent) :
    Change link .turn (link.turn call frontend).1 (link.turn call frontend).2 := by
  rcases link.beginEstablishing_cases with ⟨idle, begun⟩ | ⟨error, late⟩
  next =>
    rw [turn, begun]
    exact .turns first absent idle
  next =>
    simp only [turn, late, settleCall, leaveGate_eq]
    exact .lateTurn first absent

theorem stepEstablishing_change {progress : Progress}
    (stepped : link.stepEstablishing move = some progress) :
    Change link move progress.1 progress.2 := by
  unfold stepEstablishing at stepped
  split at stepped
  next call =>
    obtain ⟨role, ⟨⟩⟩ := Option.ite_none_right_eq_some.mp stepped
    exact connect_change call role
  next call frontend =>
    obtain ⟨role, ⟨⟩⟩ := Option.ite_none_right_eq_some.mp stepped
    refine .waits rfl (by simp) (fun _ _ _ first => ?_) (fun dialing => by simp [role] at dialing)
      (by simp)
    obtain ⟨rest, queue⟩ := List.head?_eq_some_iff.mp first
    simp [queue]
  next =>
    split at stepped
    next first absent =>
      obtain rfl := Option.some.inj stepped
      exact turn_change (by simp [first]) absent
    next => simp at stepped
  next channel listener launching =>
    split at stepped
    next binding =>
      obtain ⟨missing, ⟨⟩⟩ := Option.ite_none_right_eq_some.mp stepped
      exact bind_change listener launching binding (Option.isNone_iff_eq_none.mp missing)
    next => simp at stepped
  next channel fault =>
    split at stepped
    next binding =>
      obtain ⟨-, ⟨⟩⟩ := Option.ite_none_right_eq_some.mp stepped
      refine settles_change _ (by simp [binding]) rfl ?_ (disposes_unlistenAll _)
        (by simp [unlistenAll]) link.fail (.inl rfl)
      rw [releases_unlistenAll, binding]
      rfl
    next => simp at stepped
  next channel stream =>
    split at stepped
    next making =>
      obtain ⟨⟨missing, heedless⟩, ⟨⟩⟩ := Option.ite_none_right_eq_some.mp stepped
      exact connected_change stream making (by simpa using heedless)
        (Option.isNone_iff_eq_none.mp missing)
    next => simp at stepped
  next channel fault =>
    split at stepped
    next making =>
      obtain ⟨-, ⟨⟩⟩ := Option.ite_none_right_eq_some.mp stepped
      exact giveUp_change rfl rfl making
    next => simp at stepped
  next =>
    split at stepped
    next making =>
      obtain ⟨-, ⟨⟩⟩ := Option.ite_none_right_eq_some.mp stepped
      exact giveUp_change rfl rfl making
    next => simp at stepped
  next =>
    split at stepped
    next =>
      obtain ⟨-, ⟨⟩⟩ := Option.ite_none_left_eq_some.mp stepped
      exact .waits rfl (by simp) (fun _ _ _ first => first) (fun _ _ => .inl) (by simp)
    next => simp at stepped
  next =>
    split at stepped
    next storing =>
      obtain ⟨-, ⟨⟩⟩ := Option.ite_none_right_eq_some.mp stepped
      exact store_change storing
    next => simp at stepped
  next result =>
    split at stepped
    next abandoning =>
      obtain rfl := Option.some.inj stepped
      exact abandon_change result abandoning
    next => simp at stepped
  next => exact cancel_change stepped
  next => simp at stepped

theorem stepWriting_change {progress : Progress}
    (stepped : link.stepWriting move = some progress) :
    Change link move progress.1 progress.2 := by
  have queues {effects : List Effect} {locks : Channels (List Holder)} (waits : move.waits)
      (quiet : ∀ effect ∈ effects, effect.writes)
      (puts : ∀ stream bytes, .put stream bytes ∈ effects →
        Puts link move effects stream bytes) : Change link move effects { link with locks } :=
    .waits waits quiet (fun _ _ _ first => first) (fun _ _ => .inl) puts
  unfold stepWriting at stepped
  split at stepped
  next =>
    obtain rfl := Option.some.inj stepped
    exact queues rfl (by simp) (by simp)
  next =>
    split at stepped
    next =>
      split at stepped
      next =>
        obtain rfl := Option.some.inj stepped
        exact queues rfl (by simp [finishWrite, Effect.writes]) (by simp [finishWrite])
      next =>
        obtain rfl := Option.some.inj stepped
        exact queues rfl (by simp) (by simp)
    next => simp at stepped
  next =>
    split at stepped
    next open' _ stored =>
      obtain ⟨-, ⟨⟩⟩ := Option.ite_none_right_eq_some.mp stepped
      refine queues rfl (by simp [Effect.writes]) fun stream bytes member => ?_
      obtain ⟨rfl, rfl⟩ := Effect.put.inj (List.mem_singleton.mp member)
      exact .puts open' stored
    next => simp at stepped
  next =>
    split at stepped
    next =>
      obtain rfl := Option.some.inj stepped
      exact queues rfl (by simp [finishWrite, Effect.writes]) (by simp [finishWrite])
    next => simp at stepped
  next =>
    split at stepped
    next =>
      obtain rfl := Option.some.inj stepped
      exact queues rfl (by simp [finishWrite, Effect.writes]) (by simp [finishWrite])
    next => simp at stepped
  next =>
    obtain ⟨-, ⟨⟩⟩ := Option.ite_none_right_eq_some.mp stepped
    exact queues rfl (by simp [Effect.writes]) (by simp)
  next =>
    obtain ⟨-, ⟨⟩⟩ := Option.ite_none_right_eq_some.mp stepped
    exact queues rfl (by simp) (by simp)
  next => simp at stepped

theorem resume_change (link : Link) :
    Change link .resume [.resumed link.resume.1] link.resume.2 := by
  unfold resume
  split
  next => exact .resumesNothing
  next ready paused => exact .resumes ready paused
  next => exact .resumesNothing
  next => exact .resumesNothing

theorem stepReading_change {progress : Progress}
    (stepped : link.stepReading move = some progress) :
    Change link move progress.1 progress.2 := by
  unfold stepReading at stepped
  split at stepped
  next =>
    obtain rfl := Option.some.inj stepped
    exact .takesEvents
  next =>
    obtain rfl := Option.some.inj stepped
    exact resume_change link
  next =>
    split at stepped
    next running =>
      obtain ⟨⟨some', limited⟩, ⟨⟩⟩ := Option.ite_none_right_eq_some.mp stepped
      exact .reads running some' limited
    next => simp at stepped
  next channel =>
    split at stepped
    next stream running =>
      obtain rfl := Option.some.inj stepped
      simp only [readEnd]
      split
      next last =>
        rw [notify_eq]
        exact .lastReadEnds running last
      next more => exact .readEnds running more
    next => simp at stepped
  next => simp at stepped

theorem abortReader_eq (reader : Reader) :
    ∃ effects, abortReader reader = (effects, reader.abort) ∧
      effects.flatMap Effect.releases = reader.held ∧ ∀ effect ∈ effects, effect.disposes := by
  cases reader with
  | running stream => exact ⟨_, rfl, rfl, by simp [Effect.disposes]⟩
  | _ => exact ⟨_, rfl, rfl, by simp⟩

theorem release_eq (link : Link) :
    ∃ effects, link.release = (effects, link.released) ∧
      effects.flatMap Effect.releases = link.unlocked ∧ ∀ effect ∈ effects, effect.disposes := by
  obtain ⟨control, aborted, controlHeld, controlOnly⟩ := abortReader_eq link.readers.control
  obtain ⟨data, aborted', dataHeld, dataOnly⟩ := abortReader_eq link.readers.data
  simp only [release, aborted, aborted']
  refine ⟨_, rfl, ?_, ?_⟩
  next =>
    cases paused : link.paused <;>
      simp [unlocked, controlHeld, dataHeld, paused, Effect.releases, Channels.toList]
  next =>
    simp only [List.forall_mem_append]
    refine ⟨⟨⟨disposes_unlistenAll _, controlOnly⟩, dataOnly⟩, ?_⟩
    split <;> simp [Effect.disposes]

theorem close_change (link : Link) : Change link .close link.close.1 link.close.2 := by
  unfold close
  split
  next closing => exact .closesAgain closing
  next heedless =>
    simp only [Bool.not_eq_true] at heedless
    dsimp only
    split
    next role =>
      obtain ⟨effects, released, all, only⟩ :=
        release_eq { link with closing := true, state := .closed }
      rw [released]
      exact .closesDialing heedless role all only
    next role => exact .closesWaiting heedless role

theorem closeNext_change {channel : Channel} {effects : List Effect}
    (passes : Passes link channel move effects) :
    Change link move (effects ++ ((link.popLock channel).closeNext channel).1)
      ((link.popLock channel).closeNext channel).2 := by
  cases channel with
  | control =>
    simp only [popLock, closeNext, List.append_nil]
    exact .passesControl passes
  | data =>
    unfold closeNext
    by_cases helper : (link.popLock .data).helper = true
    next =>
      rw [if_pos helper]
      exact .terminates passes helper
    next =>
      rw [if_neg helper]
      simp only [closeLast, notify_eq, ← List.append_assoc]
      exact .returns passes (Bool.eq_false_iff.mpr helper)

theorem stepClosing_change {progress : Progress}
    (stepped : link.stepClosing move = some progress) :
    Change link move progress.1 progress.2 := by
  unfold stepClosing at stepped
  split at stepped
  next =>
    obtain rfl := Option.some.inj stepped
    exact close_change link
  next =>
    split at stepped
    next =>
      obtain ⟨-, ⟨⟩⟩ := Option.ite_none_left_eq_some.mp stepped
      refine .waits rfl (by simp) (fun _ _ _ first => ?_) (by simp) (by simp)
      obtain ⟨rest, queue⟩ := List.head?_eq_some_iff.mp first
      simp [queue]
    next =>
      obtain ⟨-, ⟨⟩⟩ := Option.ite_none_left_eq_some.mp stepped
      exact .waits rfl (by simp) (fun _ _ _ first => first) (fun _ _ => .inl) (by simp)
    next => simp at stepped
  next =>
    split at stepped
    next gate waiting first =>
      obtain rfl := Option.some.inj stepped
      obtain ⟨effects, released, all, only⟩ := release_eq { link with gate }
      rw [released]
      exact .closesAlone waiting first all only
    next => simp at stepped
  next =>
    split at stepped
    next channel locking =>
      obtain ⟨-, ⟨⟩⟩ := Option.ite_none_right_eq_some.mp stepped
      unfold closeLock
      split
      next nothing => exact closeNext_change (.unconnected locking nothing)
      next stream stored => exact .closeLocks locking stored
    next => simp at stepped
  next result =>
    split at stepped
    next channel stream shutting =>
      obtain rfl := Option.some.inj stepped
      cases result with
      | ok => exact closeNext_change (.shut shutting)
      | error => exact closeNext_change (.unshut shutting)
    next => simp at stepped
  next result =>
    split at stepped
    next stopping =>
      obtain rfl := Option.some.inj stepped
      simp only [closeLast, notify_eq]
      exact .stops stopping
    next => simp at stepped
  next => simp at stepped

theorem step_change {effects : List Effect} {link' : Link}
    (stepped : link.step move = some (effects, link')) : Change link move effects link' := by
  unfold step at stepped
  split at stepped
  all_goals first
    | exact stepEstablishing_change stepped
    | exact stepWriting_change stepped
    | exact stepReading_change stepped
    | exact stepClosing_change stepped

theorem not_mem_telling (stream : Stream) (bytes : Bytes) : .put stream bytes ∉ link.telling := by
  unfold telling
  split <;> simp

theorem Change.put {effects : List Effect} {link' : Link} {stream : Stream} {bytes : Bytes}
    (change : Change link move effects link') (put : .put stream bytes ∈ effects) :
    Puts link move effects stream bytes := by
  have disposed (only : ∀ effect ∈ effects, effect.disposes) :
      Puts link move effects stream bytes := absurd (only _ put) (by simp [Effect.disposes])
  cases change with
  | waits _ _ _ _ puts => exact puts stream bytes put
  | abandonsOne _ _ only | settles _ _ _ only | closesDialing _ _ _ only
  | closesAlone _ _ _ only => exact disposed only
  | abandons => exact disposed (disposes_unlistenAll _)
  | lastReadEnds | stops => simp [not_mem_telling] at put
  | passesControl passes | terminates passes | returns passes =>
    cases passes <;> simp [not_mem_telling] at put
  | _ => simp at put

end Inversion

end TpmRelay.Link
