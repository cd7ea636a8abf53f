import TpmRelay.Proofs.Link.Ledger

set_option autoImplicit false

namespace TpmRelay

@[simp] theorem Channels.get_modify {α : Type} (pair : Channels α) (channel other : Channel)
    (f : α → α) : (pair.modify channel f).get other =
      if other = channel then f (pair.get channel) else pair.get other := by
  rw [modify, get_set]

namespace Link

namespace Lane

inductive Act where
  | called (call : Nat) (bytes : Bytes)
  -- The call has the writer from here on.
  | obtained (call : Nat)
  | put (call : Nat) (bytes : Bytes)
  | returned (call : Nat) (result : Except Fault Unit)
  | forgotten (call : Nat)
  | closing
  | shut

def subject? (link : Link) : Move → Option Channel
  | .write _ channel _ | .begin channel | .put channel _ | .putFails channel _ | .flush channel _
  | .abort channel _ | .forget channel _ => some channel
  | .closeShut _ =>
    match link.closer with
    | .shutting channel _ => some channel
    | _ => none
  | _ => none

def first? (link : Link) (channel : Channel) : Option Nat :=
  match link.locks.get channel with
  | .write call .. :: _ => some call
  | _ => none

def ofMove (first? : Option Nat) : Move → List Act
  | .write call _ bytes => [.called call bytes]
  | .begin _ => first?.toList.map .obtained
  | .forget _ call => [.forgotten call]
  | _ => []

-- What is done to another connection than that of the channel does not count.
def ofEffect (link : Link) (channel : Channel) : Effect → List Act
  | .put stream bytes =>
    if link.writers.get channel = some stream then
      (first? link channel).toList.map (.put · bytes)
    else []
  | .wrote call result => [.returned call result]
  | .shut stream => if link.closer = .shutting channel stream then [.shut] else []
  | _ => []

def acts (link : Link) (channel : Channel) (move : Move) (effects : List Effect) : List Act :=
  match move with
  | .close => [.closing]
  | move =>
    if subject? link move = some channel then
      ofMove (first? link channel) move ++ effects.flatMap (ofEffect link channel)
    else []

/-- A queue is joined or left, or its first writes. -/
inductive Serves (channel : Channel) (closing : Bool) :
    List Holder → List Act → List Holder → Prop where
  | stays {queue : List Holder} : Serves channel closing queue [] queue
  | joins {queue : List Holder} {holder : Holder} (other : holder = .store ∨ holder = .release) :
      Serves channel closing queue [] (queue ++ [holder])
  | stored {queue : List Holder} : Serves channel closing (.store :: queue) [] queue
  | withdraws {queue : List Holder} :
      Serves channel closing queue [] (queue.filter (· ≠ .store))
  | called {queue : List Holder} {call : Nat} {bytes : Bytes} :
      Serves channel closing queue [.called call bytes] (queue ++ [.write call bytes none])
  | unconnected {queue : List Holder} {call : Nat} {bytes : Bytes} {fault : Fault}
      (open' : closing = false) :
      Serves channel closing (.write call bytes none :: queue)
        [.obtained call, .returned call (.error fault)] queue
  | begins {queue : List Holder} {call : Nat} {bytes : Bytes} (open' : closing = false) :
      Serves channel closing (.write call bytes none :: queue) [.obtained call]
        (.write call bytes (some bytes) :: queue)
  | puts {queue : List Holder} {call : Nat} {bytes left : Bytes} {count : Nat}
      (open' : closing = false) :
      Serves channel closing (.write call bytes (some left) :: queue)
        [.put call (left.take count)] (.write call bytes (some (left.drop count)) :: queue)
  | fails {queue : List Holder} {call : Nat} {bytes left : Bytes} {fault : Fault}
      (open' : closing = false) :
      Serves channel closing (.write call bytes (some left) :: queue)
        [.returned call (.error fault)] queue
  | flushes {queue : List Holder} {call : Nat} {bytes : Bytes} {result : Except Fault Unit}
      (open' : closing = false) :
      Serves channel closing (.write call bytes (some []) :: queue) [.returned call result] queue
  | aborts {queue : List Holder} {call : Nat} {bytes : Bytes} {left : Option Bytes}
      (asked : closing = true) (queued : .write call bytes left ∈ queue) :
      Serves channel closing queue [.returned call (.error (aborted channel))]
        (withoutCall call queue)
  | forgets {queue : List Holder} {call : Nat} {bytes : Bytes} {left : Option Bytes}
      (queued : .write call bytes left ∈ queue) :
      Serves channel closing queue [.forgotten call] (withoutCall call queue)

inductive Advances (channel : Channel) (closing : Bool) :
    List Holder → List Act → List Holder → Prop where
  | serves {queue queue' : List Holder} {acts : List Act}
      (serves : Serves channel closing queue acts queue') :
      Advances channel closing queue acts queue'
  | asked {queue : List Holder} : Advances channel closing queue [.closing] queue
  -- The close lets go of the writer.
  | released {queue : List Holder} {acts : List Act} (asked : closing = true)
      (only : acts = [] ∨ acts = [.shut]) : Advances channel closing (.release :: queue) acts queue

theorem Serves.keeps_release {channel : Channel} {closing : Bool} {queue queue' : List Holder}
    {acts : List Act} (serves : Serves channel closing queue acts queue')
    (first : queue.head? = some .release) : queue'.head? = some .release := by
  obtain ⟨rest, rfl⟩ := List.head?_eq_some_iff.mp first
  cases serves with
  | stays | joins | called => rfl
  | withdraws | aborts | forgets => simp [withoutCall]

end Lane

open Lane

def guard (link : Link) : Channels (List Holder) × Closer × Bool :=
  (link.locks, link.closer, link.closing)

section Guard

variable (link : Link) (call : Nat)

@[simp] theorem guard_leaveGate : link.leaveGate.guard = link.guard := by
  rw [leaveGate_eq]
  rfl

@[simp] theorem guard_settleCall (result : Except Error Unit) :
    (link.settleCall call result).2.guard = link.guard :=
  guard_leaveGate link

theorem guard_settleCall_fail (error : Error) :
    (link.fail.settleCall call (.error error)).2.guard = link.guard :=
  guard_settleCall link.fail call _

@[simp] theorem guard_connect : (link.connect call).2.guard = link.guard := by
  rcases link.beginEstablishing_cases with ⟨-, begun⟩ | ⟨error, late⟩
  next =>
    rw [connect, begun]
    rfl
  next => rw [connect, late]

@[simp] theorem guard_turn (frontend : String) :
    (link.turn call frontend).2.guard = link.guard := by
  rcases link.beginEstablishing_cases with ⟨-, begun⟩ | ⟨error, late⟩
  next =>
    rw [turn, begun]
    rfl
  next =>
    rw [turn, late]
    exact guard_settleCall link call _

@[simp] theorem guard_launch (frontend : String) (listeners : Channels Listener)
    (launching : Launching) :
    (link.launch call frontend listeners launching).2.guard = link.guard := by
  cases launching with
  | started => rfl
  | unplaced fault => exact guard_settleCall_fail link call (.transport fault)
  | refused fault => exact guard_settleCall_fail link call (.helper fault)

@[simp] theorem guard_bind (frontend : String) (bound : Channels (Option Listener))
    (channel : Channel) (listener : Listener) (launching : Launching) :
    (link.bind call frontend bound channel listener launching).2.guard = link.guard := by
  simp only [bind]
  split
  next => exact guard_launch ..
  next => rfl

@[simp] theorem guard_unbind (bound : Channels (Option Listener)) (fault : Fault) :
    (link.unbind call bound fault).2.guard = link.guard :=
  guard_settleCall_fail link call (.transport fault)

@[simp] theorem guard_giveUp (listeners : Option (Channels Listener))
    (made : Channels (Option Stream)) (error : Error) :
    (link.giveUp call listeners made error).2.guard = link.guard := by
  simp only [giveUp]
  split
  next => exact guard_settleCall_fail link call error
  next => exact guard_settleCall_fail link call error
  next => rfl

@[simp] theorem guard_connected (listeners : Option (Channels Listener))
    (made : Channels (Option Stream)) (channel : Channel) (stream : Stream) :
    (link.connected call listeners made channel stream).guard = link.guard := by
  simp only [connected]
  split <;> rfl

@[simp] theorem guard_abandon (error : Error) (result : Except Fault Unit) (left : List Stream) :
    (link.abandon call error result left).2.guard = link.guard := by
  cases left with
  | nil => exact guard_settleCall link call _
  | cons stream left =>
    cases left with
    | nil => exact guard_settleCall link call (.error error)
    | cons => rfl

@[simp] theorem guard_store (channel : Channel) (made : Channels Stream) :
    (link.store call channel made).2.guard = (link.popLock channel).guard := by
  cases channel with
  | control => rfl
  | data =>
    simp only [store]
    split
    next => exact (guard_settleCall _ call _).trans rfl
    next => exact (guard_settleCall _ call _).trans rfl
    next => exact (guard_settleCall _ call _).trans rfl

theorem guard_cancel {progress : Progress} (cancelled : link.cancel call = some progress) :
    progress.2.guard = link.guard ∨
      ∃ channel, progress.2.guard = (link.removeStore channel).guard := by
  simp only [cancel, leaveGate_eq] at cancelled
  split at cancelled
  next =>
    split at cancelled
    next => cases cancelled
    next =>
      obtain rfl := Option.some.inj cancelled
      exact .inl rfl
    next =>
      obtain rfl := Option.some.inj cancelled
      exact .inl rfl
    next =>
      obtain rfl := Option.some.inj cancelled
      exact .inr ⟨.control, rfl⟩
    next =>
      obtain rfl := Option.some.inj cancelled
      exact .inr ⟨.data, rfl⟩
    next =>
      obtain rfl := Option.some.inj cancelled
      exact .inl rfl
  next =>
    split at cancelled
    next =>
      obtain rfl := Option.some.inj cancelled
      exact .inl rfl
    next => cases cancelled

end Guard

variable {link next : Link} {move : Move} {effects : List Effect}

theorem serves_of_guard (same : next.guard = link.guard) (channel : Channel) :
    Serves channel link.closing (link.locks.get channel) [] (next.locks.get channel) := by
  have locks : next.locks = link.locks := congrArg Prod.fst same
  rw [locks]
  exact .stays

theorem lane_modify (lane : Channel → List Holder → List Act → List Holder → Prop)
    (stays : ∀ channel queue, lane channel queue [] queue) {locks : Channels (List Holder)}
    {done : List Act} (other : Channel) (f : List Holder → List Holder)
    (own : lane other (locks.get other) done (f (locks.get other))) (channel : Channel) :
    lane channel (locks.get channel) (if other = channel then done else [])
      ((locks.modify other f).get channel) := by
  rw [Channels.get_modify]
  by_cases same : channel = other
  next =>
    subst same
    simpa using own
  next =>
    rw [if_neg same, if_neg (Ne.symm same)]
    exact stays _ _

inductive Guards (link next : Link) : Prop where
  | same (same : next.guard = link.guard)
  | changed (other : Channel) (f : List Holder → List Holder)
      (changed : next.guard = (link.locks.modify other f, link.closer, link.closing))
      (own : Serves other link.closing (link.locks.get other) [] (f (link.locks.get other)))

theorem Guards.serves (guards : Guards link next) (channel : Channel) :
    Serves channel link.closing (link.locks.get channel) [] (next.locks.get channel) := by
  cases guards with
  | same same => exact serves_of_guard same channel
  | changed other f changed own =>
    have lane := lane_modify (Serves · link.closing) (fun _ _ => .stays) other f own channel
    have locks : next.locks = link.locks.modify other f := congrArg Prod.fst changed
    rw [locks]
    simpa only [ite_self] using lane

theorem Guards.closer (guards : Guards link next) :
    next.closer = link.closer ∧ next.closing = link.closing := by
  cases guards with
  | same same => exact Prod.mk.inj (Prod.mk.inj same).2
  | changed _ _ changed => exact Prod.mk.inj (Prod.mk.inj changed).2

inductive Queues (link next : Link) : Prop where
  | same (same : next.guard = link.guard)
  | joins (channel : Channel) (joined : next.guard = (link.pushLock channel .store).guard)
  | stored (channel : Channel) (first : (link.locks.get channel).head? = some .store)
      (stored : next.guard = (link.popLock channel).guard)
  | withdraws (channel : Channel) (withdrawn : next.guard = (link.removeStore channel).guard)

theorem Queues.guards (queues : Queues link next) : Guards link next := by
  cases queues with
  | same same => exact .same same
  | joins channel joined => exact .changed channel (· ++ [Holder.store]) joined (.joins (.inl rfl))
  | withdraws channel withdrawn => exact .changed channel _ withdrawn .withdraws
  | stored channel first stored =>
    obtain ⟨rest, queue⟩ := List.head?_eq_some_iff.mp first
    refine .changed channel List.tail stored ?_
    rw [queue]
    exact .stored

theorem guard_of_made {progress : Progress} (made : some progress = some (effects, next))
    (same : progress.2.guard = link.guard) : next.guard = link.guard := by
  obtain rfl := Option.some.inj made
  exact same

theorem Queues.of_made {progress : Progress} (made : some progress = some (effects, next))
    (same : progress.2.guard = link.guard) : Queues link next :=
  .same (guard_of_made made same)

theorem stepEstablishing_queues (stepped : link.stepEstablishing move = some (effects, next)) :
    Queues link next := by
  unfold stepEstablishing at stepped
  split at stepped
  next call => exact .of_made (Option.ite_none_right_eq_some.mp stepped).2 (by simp)
  next => exact .of_made (Option.ite_none_right_eq_some.mp stepped).2 rfl
  next =>
    split at stepped
    next => exact .of_made stepped (by simp)
    next => cases stepped
  next =>
    split at stepped
    next => exact .of_made (Option.ite_none_right_eq_some.mp stepped).2 (by simp)
    next => cases stepped
  next =>
    split at stepped
    next => exact .of_made (Option.ite_none_right_eq_some.mp stepped).2 (by simp)
    next => cases stepped
  next =>
    split at stepped
    next => exact .of_made (Option.ite_none_right_eq_some.mp stepped).2 (by simp)
    next => cases stepped
  next =>
    split at stepped
    next => exact .of_made (Option.ite_none_right_eq_some.mp stepped).2 (by simp)
    next => cases stepped
  next =>
    split at stepped
    next => exact .of_made (Option.ite_none_right_eq_some.mp stepped).2 (by simp)
    next => cases stepped
  next =>
    split at stepped
    next channel _ _ =>
      obtain ⟨-, ⟨⟩⟩ := Option.ite_none_left_eq_some.mp stepped
      exact .joins channel rfl
    next => cases stepped
  next =>
    split at stepped
    next call channel made storing =>
      obtain ⟨first, stored⟩ := Option.ite_none_right_eq_some.mp stepped
      obtain rfl : (link.store call channel made).2 = next :=
        congrArg Prod.snd (Option.some.inj stored)
      exact .stored channel first (guard_store link call channel made)
    next => cases stepped
  next =>
    split at stepped
    next => exact .of_made stepped (by simp)
    next => cases stepped
  next call =>
    rcases guard_cancel link call stepped with same | ⟨channel, removed⟩
    next => exact .same same
    next => exact .withdraws channel removed
  next => cases stepped

theorem stepEstablishing_guards (stepped : link.stepEstablishing move = some (effects, next)) :
    Guards link next :=
  (stepEstablishing_queues stepped).guards

theorem acts_eq {other : Channel} (about : subject? link move = some other) (channel : Channel) :
    acts link channel move effects =
      if other = channel then
        ofMove (first? link other) move ++ effects.flatMap (ofEffect link other)
      else [] := by
  have acts : acts link channel move effects =
      if subject? link move = some channel then
        ofMove (first? link channel) move ++ effects.flatMap (ofEffect link channel)
      else [] := by
    cases move <;> first | rfl | cases about
  rw [acts, about]
  by_cases same : other = channel
  next => simp [same]
  next => simp [same]

structure Works (link : Link) (move : Move) (effects : List Effect) (next : Link) : Prop where
  serves (channel : Channel) : Serves channel link.closing (link.locks.get channel)
    (acts link channel move effects) (next.locks.get channel)
  closer : next.closer = link.closer
  closing : next.closing = link.closing

theorem Works.of_own (other : Channel) (f : List Holder → List Holder)
    (about : subject? link move = some other)
    (own : Serves other link.closing (link.locks.get other)
      (ofMove (first? link other) move ++ effects.flatMap (ofEffect link other))
      (f (link.locks.get other))) :
    Works link move effects { link with locks := link.locks.modify other f } := by
  refine ⟨fun channel => ?_, rfl, rfl⟩
  rw [acts_eq about]
  exact lane_modify (Serves · link.closing) (fun _ _ => .stays) other f own channel

theorem first?_of_queue {channel : Channel} {call : Nat} {bytes : Bytes} {left : Option Bytes}
    {rest : List Holder} (queue : link.locks.get channel = .write call bytes left :: rest) :
    first? link channel = some call := by
  simp [first?, queue]

theorem hasCall_iff {channel : Channel} {call : Nat} :
    link.hasCall channel call = true ↔
      ∃ bytes left, .write call bytes left ∈ link.locks.get channel := by
  rw [hasCall, List.any_eq_true]
  constructor
  next =>
    rintro ⟨holder, queued, same⟩
    cases holder with
    | write other bytes left =>
      obtain rfl := of_decide_eq_true same
      exact ⟨bytes, left, queued⟩
    | store | release => cases same
  next =>
    rintro ⟨bytes, left, queued⟩
    exact ⟨_, queued, decide_eq_true rfl⟩

theorem stepWriting_works (stepped : link.stepWriting move = some (effects, next)) :
    Works link move effects next := by
  unfold stepWriting at stepped
  split at stepped
  next call channel bytes =>
    obtain ⟨rfl, rfl⟩ := Prod.mk.inj (Option.some.inj stepped)
    exact .of_own channel _ rfl .called
  next channel =>
    split at stepped
    next call bytes rest open' queue =>
      have first := first?_of_queue queue
      split at stepped
      next =>
        obtain ⟨rfl, rfl⟩ := Prod.mk.inj (Option.some.inj stepped)
        refine .of_own channel _ rfl ?_
        rw [queue, first]
        exact .unconnected open'
      next =>
        obtain ⟨rfl, rfl⟩ := Prod.mk.inj (Option.some.inj stepped)
        refine .of_own channel (fun _ => .write call bytes (some bytes) :: rest) rfl ?_
        rw [queue, first]
        exact .begins open'
    next => cases stepped
  next channel count =>
    split at stepped
    next call bytes left rest stream open' queue stored =>
      have first := first?_of_queue queue
      obtain ⟨-, put⟩ := Option.ite_none_right_eq_some.mp stepped
      obtain ⟨rfl, rfl⟩ := Prod.mk.inj (Option.some.inj put)
      refine .of_own channel (fun _ => .write call bytes (some (left.drop count)) :: rest) rfl ?_
      simp only [List.flatMap_singleton, ofEffect, stored, if_true]
      rw [queue, first]
      exact .puts open'
    next => cases stepped
  next channel fault =>
    split at stepped
    next call bytes byte left rest open' queue =>
      have first := first?_of_queue queue
      obtain ⟨rfl, rfl⟩ := Prod.mk.inj (Option.some.inj stepped)
      refine .of_own channel _ rfl ?_
      rw [queue, first]
      exact .fails open'
    next => cases stepped
  next channel result =>
    split at stepped
    next call bytes rest open' queue =>
      have first := first?_of_queue queue
      obtain ⟨rfl, rfl⟩ := Prod.mk.inj (Option.some.inj stepped)
      refine .of_own channel _ rfl ?_
      rw [queue, first]
      exact .flushes open'
    next => cases stepped
  next channel call =>
    obtain ⟨⟨asked, calls⟩, aborted⟩ := Option.ite_none_right_eq_some.mp stepped
    obtain ⟨bytes, left, queued⟩ := hasCall_iff.mp calls
    obtain ⟨rfl, rfl⟩ := Prod.mk.inj (Option.some.inj aborted)
    exact .of_own channel _ rfl (.aborts asked queued)
  next channel call =>
    obtain ⟨calls, forgotten⟩ := Option.ite_none_right_eq_some.mp stepped
    obtain ⟨bytes, left, queued⟩ := hasCall_iff.mp calls
    obtain ⟨rfl, rfl⟩ := Prod.mk.inj (Option.some.inj forgotten)
    exact .of_own channel _ rfl (.forgets queued)
  next => cases stepped

def Locked (link : Link) : Prop :=
  ∀ channel stream, link.closer = .shutting channel stream →
    (link.locks.get channel).head? = some .release

section Closing

variable (link : Link)

structure Apart (link : Link) (progress : Progress) : Prop where
  locks : progress.2.locks = link.locks
  closer : ∀ channel stream, progress.2.closer ≠ .shutting channel stream
  quiet : ∀ before other, progress.1.flatMap (ofEffect before other) = []

theorem apart_closeLast : Apart link link.closeLast := by
  rw [closeLast, notify_eq]
  refine ⟨rfl, by simp [told], fun before other => ?_⟩
  cases link.notified <;> simp [telling, ofEffect]

theorem apart_closeNext (channel : Channel) : Apart link (link.closeNext channel) := by
  cases channel with
  | control => exact ⟨rfl, nofun, fun _ _ => rfl⟩
  | data =>
    unfold closeNext
    by_cases helper : link.helper = true
    next =>
      rw [if_pos helper]
      exact ⟨rfl, nofun, fun _ _ => rfl⟩
    next =>
      rw [if_neg helper]
      exact apart_closeLast link

theorem locks_release : link.release.2.locks = link.locks := by
  obtain ⟨effects, released, -⟩ := release_eq link
  rw [released]
  rfl

theorem locks_close : link.close.2.locks = link.locks := by
  unfold close
  split
  next => rfl
  next =>
    dsimp only
    split
    next => exact locks_release { link with closing := true, state := .closed }
    next => rfl

end Closing

theorem advances_of_locks {channel : Channel} (locks : next.locks = link.locks)
    (unsaid : acts link channel move effects = []) :
    Advances channel link.closing (link.locks.get channel) (acts link channel move effects)
      (next.locks.get channel) := by
  rw [locks, unsaid]
  exact .serves .stays

theorem advances_modify {locks : Channels (List Holder)} {closing : Bool} {done : List Act}
    (other : Channel) (f : List Holder → List Holder)
    (own : Advances other closing (locks.get other) done (f (locks.get other)))
    (channel : Channel) :
    Advances channel closing (locks.get channel) (if other = channel then done else [])
      ((locks.modify other f).get channel) :=
  lane_modify (Advances · closing) (fun _ _ => .serves .stays) other f own channel

theorem closeLock_advances {other : Channel} (closing : link.closing = true)
    (first : (link.locks.get other).head? = some .release) (channel : Channel) :
    Advances channel link.closing (link.locks.get channel) []
      ((link.closeLock other).2.locks.get channel) := by
  obtain ⟨rest, queue⟩ := List.head?_eq_some_iff.mp first
  unfold closeLock
  split
  next =>
    have locks : ((link.popLock other).closeNext other).2.locks = link.locks.modify other List.tail :=
      (apart_closeNext (link.popLock other) other).locks
    rw [locks]
    have leaves : Advances other link.closing (link.locks.get other) []
        (link.locks.get other).tail := by
      rw [queue]
      exact .released closing (.inl rfl)
    simpa only [ite_self] using advances_modify other List.tail leaves channel
  next => exact .serves .stays

theorem closeShut_acts {channel : Channel} {stream : Stream}
    (shutting : link.closer = .shutting channel stream) (result : Except Fault Unit) :
    let done := ofMove (first? link channel) (.closeShut result) ++
      (link.closeShut channel stream result).1.flatMap (ofEffect link channel)
    done = [] ∨ done = [.shut] := by
  have quiet := (apart_closeNext (link.popLock channel) channel).quiet link channel
  cases result with
  | ok => exact .inr (by simp [closeShut, ofMove, ofEffect, quiet, shutting])
  | error => exact .inl (by simp [closeShut, ofMove, ofEffect, quiet])

theorem closeShut_advances {other : Channel} {stream : Stream} {result : Except Fault Unit}
    (closing : link.closing = true) (shutting : link.closer = .shutting other stream)
    (first : (link.locks.get other).head? = some .release) (channel : Channel) :
    Advances channel link.closing (link.locks.get channel)
      (acts link channel (.closeShut result) (link.closeShut other stream result).1)
      ((link.closeShut other stream result).2.locks.get channel) := by
  obtain ⟨rest, queue⟩ := List.head?_eq_some_iff.mp first
  have apart := apart_closeNext (link.popLock other) other
  have locks : (link.closeShut other stream result).2.locks = link.locks.modify other List.tail :=
    apart.locks
  have about : subject? link (.closeShut result) = some other := by simp [subject?, shutting]
  rw [acts_eq about, locks]
  refine advances_modify other List.tail ?_ channel
  rw [queue]
  exact .released closing (closeShut_acts shutting result)

theorem stepClosing_advances (answers : link.Answers) (locked : link.Locked)
    (stepped : link.stepClosing move = some (effects, next)) (channel : Channel) :
    Advances channel link.closing (link.locks.get channel) (acts link channel move effects)
      (next.locks.get channel) := by
  unfold stepClosing at stepped
  split at stepped
  next =>
    obtain rfl : link.close.2 = next := congrArg Prod.snd (Option.some.inj stepped)
    rw [locks_close]
    exact .asked
  next =>
    split at stepped
    next =>
      obtain ⟨-, ⟨⟩⟩ := Option.ite_none_left_eq_some.mp stepped
      exact advances_of_locks rfl rfl
    next other _ =>
      obtain ⟨-, ⟨⟩⟩ := Option.ite_none_left_eq_some.mp stepped
      have joins : Advances other link.closing (link.locks.get other) []
        (link.locks.get other ++ [.release]) := .serves (.joins (.inr rfl))
      have lane := advances_modify other (· ++ [.release]) joins channel
      rwa [ite_self] at lane
    next => cases stepped
  next =>
    split at stepped
    next gate _ _ =>
      obtain rfl := congrArg Prod.snd (Option.some.inj stepped)
      exact advances_of_locks (locks_release { link with gate }) rfl
    next => cases stepped
  next =>
    split at stepped
    next other locking =>
      obtain ⟨first, passed⟩ := Option.ite_none_right_eq_some.mp stepped
      obtain rfl : (link.closeLock other).2 = next := congrArg Prod.snd (Option.some.inj passed)
      exact closeLock_advances (answers.closing (by simp [locking])).1 first channel
    next => cases stepped
  next result =>
    split at stepped
    next other stream shutting =>
      obtain rfl : (link.closeShut other stream result).1 = effects :=
        congrArg Prod.fst (Option.some.inj stepped)
      obtain rfl : (link.closeShut other stream result).2 = next :=
        congrArg Prod.snd (Option.some.inj stepped)
      exact closeShut_advances (answers.closing (by simp [shutting])).1 shutting
        (locked other stream shutting) channel
    next => cases stepped
  next =>
    split at stepped
    next =>
      obtain rfl := congrArg Prod.snd (Option.some.inj stepped)
      exact advances_of_locks (apart_closeLast link).locks rfl
    next => cases stepped
  next => cases stepped

theorem stepReading_guard (stepped : link.stepReading move = some (effects, next)) :
    next.guard = link.guard := by
  unfold stepReading at stepped
  split at stepped
  next => exact guard_of_made stepped rfl
  next =>
    refine guard_of_made stepped ?_
    have resumed : link.resume.2.guard = link.guard := by
      unfold resume
      split <;> rfl
    exact resumed
  next =>
    split at stepped
    next => exact guard_of_made (Option.ite_none_right_eq_some.mp stepped).2 rfl
    next => cases stepped
  next =>
    split at stepped
    next =>
      refine guard_of_made stepped ?_
      simp only [readEnd, notify_eq]
      split <;> rfl
    next => cases stepped
  next => cases stepped

theorem step_cases (stepped : link.step move = some (effects, next)) :
    Guards link next ∧ (∀ channel, acts link channel move effects = []) ∨
      Works link move effects next ∨ link.stepClosing move = some (effects, next) := by
  cases kind : move with
  | connect | listen | turn | bound | unbound | connected | refused | notice | queueUp | store
  | abandon | cancel =>
    have established : link.stepEstablishing move = some (effects, next) := by
      simpa [step, kind] using stepped
    exact .inl ⟨stepEstablishing_guards established, fun _ => rfl⟩
  | write | begin | put | putFails | flush | abort | forget =>
    have written : link.stepWriting move = some (effects, next) := by
      simpa [step, kind] using stepped
    exact .inr (.inl (kind ▸ stepWriting_works written))
  | takeEvents | resume | read | readEnd =>
    have read : link.stepReading move = some (effects, next) := by
      simpa [step, kind] using stepped
    exact .inl ⟨.same (stepReading_guard read), fun _ => rfl⟩
  | close | closeQueueUp | closeAlone | closeLock | closeShut | stopped =>
    exact .inr (.inr (by simpa [step, kind] using stepped))

theorem step_advances (answers : link.Answers) (locked : link.Locked)
    (stepped : link.step move = some (effects, next)) (channel : Channel) :
    Advances channel link.closing (link.locks.get channel) (acts link channel move effects)
      (next.locks.get channel) := by
  rcases step_cases stepped with ⟨guards, quiet⟩ | works | closes
  next =>
    rw [quiet]
    exact .serves (guards.serves channel)
  next => exact .serves (works.serves channel)
  next => exact stepClosing_advances answers locked closes channel

theorem stepClosing_locked (stepped : link.stepClosing move = some (effects, next))
    (locked : link.Locked) : next.Locked := by
  intro channel stream shutting
  unfold stepClosing at stepped
  split at stepped
  next =>
    obtain rfl : link.close.2 = next := congrArg Prod.snd (Option.some.inj stepped)
    unfold close at shutting ⊢
    split at shutting
    next again =>
      rw [if_pos again]
      exact locked channel stream shutting
    next =>
      dsimp only at shutting
      split at shutting
      next =>
        obtain ⟨effects, released, -⟩ :=
          release_eq { link with closing := true, state := .closed }
        simp [released, Link.released] at shutting
      next => cases shutting
  next =>
    split at stepped
    next waiting =>
      obtain ⟨-, ⟨⟩⟩ := Option.ite_none_left_eq_some.mp stepped
      simp [waiting] at shutting
    next other locking =>
      obtain ⟨-, ⟨⟩⟩ := Option.ite_none_left_eq_some.mp stepped
      simp [pushLock, locking] at shutting
    next => cases stepped
  next =>
    split at stepped
    next gate _ _ =>
      obtain rfl := congrArg Prod.snd (Option.some.inj stepped)
      obtain ⟨effects, released, -⟩ := release_eq { link with gate }
      simp [released, Link.released] at shutting
    next => cases stepped
  next =>
    split at stepped
    next other locking =>
      obtain ⟨first, passed⟩ := Option.ite_none_right_eq_some.mp stepped
      obtain rfl : (link.closeLock other).2 = next := congrArg Prod.snd (Option.some.inj passed)
      unfold closeLock at shutting ⊢
      split at shutting
      next => exact absurd shutting ((apart_closeNext (link.popLock other) other).closer _ _)
      next stored =>
        obtain ⟨rfl, -⟩ := Closer.shutting.inj shutting
        simpa [stored] using first
    next => cases stepped
  next result =>
    split at stepped
    next other stream _ =>
      obtain rfl := congrArg Prod.snd (Option.some.inj stepped)
      exact absurd shutting ((apart_closeNext (link.popLock other) other).closer channel _)
    next => cases stepped
  next =>
    split at stepped
    next =>
      obtain rfl := congrArg Prod.snd (Option.some.inj stepped)
      exact absurd shutting ((apart_closeLast link).closer channel stream)
    next => cases stepped
  next => cases stepped

theorem Locked.step (locked : link.Locked) (stepped : link.step move = some (effects, next)) :
    next.Locked := by
  rcases step_cases stepped with ⟨guards, -⟩ | works | closes
  next =>
    intro channel stream shutting
    rw [guards.closer.1] at shutting
    exact (guards.serves channel).keeps_release (locked channel stream shutting)
  next =>
    intro channel stream shutting
    rw [works.closer] at shutting
    exact (works.serves channel).keeps_release (locked channel stream shutting)
  next => exact stepClosing_locked closes locked

end Link

end TpmRelay
