import TpmRelay.Proofs.Link.Aside
import TpmRelay.Proofs.Link.Lane

set_option autoImplicit false

namespace TpmRelay.Link

def Closer.claims (channel : Channel) : Closer → Bool
  | locking other | shutting other _ => other = channel
  | absent | waiting | stopping | returned => false

def Claimed (link : Link) : Prop :=
  ∀ channel, (link.locks.get channel).count .release ≤ (link.closer.claims channel).toNat

structure Eases (link next : Link) : Prop where
  closer : next.closer = link.closer
  fewer : ∀ channel,
    (next.locks.get channel).count .release ≤ (link.locks.get channel).count .release

section Claiming

variable {link next : Link} {move : Move} {effects : List Effect}

theorem Claimed.ease (claimed : link.Claimed) (eases : Eases link next) : next.Claimed := by
  intro channel
  rw [eases.closer]
  exact (eases.fewer channel).trans (claimed channel)

theorem Eases.of_guard (same : next.guard = link.guard) : Eases link next := by
  obtain ⟨locks, rest⟩ := Prod.mk.inj same
  exact ⟨(Prod.mk.inj rest).1, fun channel => by rw [locks]⟩

theorem Eases.of_modify (other : Channel) (f : List Holder → List Holder)
    (changed : next.guard = (link.locks.modify other f, link.closer, link.closing))
    (fewer : (f (link.locks.get other)).count .release ≤ (link.locks.get other).count .release) :
    Eases link next := by
  obtain ⟨locks, rest⟩ := Prod.mk.inj changed
  refine ⟨(Prod.mk.inj rest).1, fun channel => ?_⟩
  rw [show next.locks = link.locks.modify other f from locks, Channels.get_modify]
  split
  next same => exact same ▸ fewer
  next => exact Nat.le_refl _

theorem count_tail_le (queue : List Holder) : queue.tail.count .release ≤ queue.count .release :=
  (List.tail_sublist queue).count_le _

theorem count_withoutCall_le (call : Nat) (queue : List Holder) :
    (withoutCall call queue).count .release ≤ queue.count .release :=
  List.filter_sublist.count_le _

theorem Queues.eases (queues : Queues link next) : Eases link next := by
  cases queues with
  | same same => exact .of_guard same
  | joins channel joined =>
    exact .of_modify channel (· ++ [Holder.store]) joined (by simp)
  | stored channel _ stored => exact .of_modify channel List.tail stored (count_tail_le _)
  | withdraws channel withdrawn =>
    exact .of_modify channel _ withdrawn (List.filter_sublist.count_le _)

theorem Eases.of_made {progress : Progress} (made : some progress = some (effects, next))
    (eases : Eases link progress.2) : Eases link next := by
  obtain rfl := Option.some.inj made
  exact eases

theorem stepWriting_eases (stepped : link.stepWriting move = some (effects, next)) :
    Eases link next := by
  have pops (channel : Channel) : Eases link (link.popLock channel) :=
    .of_modify channel List.tail rfl (count_tail_le _)
  have rewrites {channel : Channel} {holder : Holder} {rest : List Holder}
      (queue : link.locks.get channel = holder :: rest) (call : Nat) (bytes : Bytes)
      (left : Option Bytes) :
      Eases link (link.withLock channel (.write call bytes left :: rest)) := by
    refine .of_modify channel (fun _ => .write call bytes left :: rest) rfl ?_
    rw [queue, List.count_cons_of_ne (by simp)]
    exact List.count_le_count_cons
  unfold stepWriting at stepped
  split at stepped
  next call channel bytes =>
    exact .of_made stepped (.of_modify channel (· ++ [.write call bytes none]) rfl (by simp))
  next channel =>
    split at stepped
    next queue =>
      split at stepped
      next => exact .of_made stepped (pops channel)
      next => exact .of_made stepped (rewrites queue _ _ _)
    next => cases stepped
  next channel count =>
    split at stepped
    next queue _ =>
      exact .of_made (Option.ite_none_right_eq_some.mp stepped).2 (rewrites queue _ _ _)
    next => cases stepped
  next channel fault =>
    split at stepped
    next => exact .of_made stepped (pops channel)
    next => cases stepped
  next channel result =>
    split at stepped
    next => exact .of_made stepped (pops channel)
    next => cases stepped
  next channel call =>
    exact .of_made (Option.ite_none_right_eq_some.mp stepped).2
      (.of_modify channel _ rfl (count_withoutCall_le call _))
  next channel call =>
    exact .of_made (Option.ite_none_right_eq_some.mp stepped).2
      (.of_modify channel _ rfl (count_withoutCall_le call _))
  next => cases stepped

theorem Claimed.unclaimed (claimed : link.Claimed) {channel : Channel}
    (free : link.closer.claims channel = false) : .release ∉ link.locks.get channel := by
  have none := claimed channel
  rw [free] at none
  exact List.count_eq_zero.mp (Nat.le_zero.mp none)

theorem Claimed.of_unclaimed (none : ∀ channel, .release ∉ link.locks.get channel) :
    link.Claimed := fun channel => by
  rw [List.count_eq_zero.mpr (none channel)]
  exact Nat.zero_le _

theorem Claimed.pass (claimed : link.Claimed) {channel : Channel}
    (claims : link.closer.claims channel = true)
    (first : (link.locks.get channel).head? = some .release)
    (locks : next.locks = link.locks.modify channel List.tail) : next.Claimed := by
  refine .of_unclaimed fun other => ?_
  rw [locks, Channels.get_modify]
  split
  next =>
    obtain ⟨rest, queue⟩ := List.head?_eq_some_iff.mp first
    have once := claimed channel
    rw [claims, queue, List.count_cons_self] at once
    rw [queue, List.tail_cons, ← List.count_eq_zero]
    exact Nat.le_zero.mp (Nat.le_of_succ_le_succ once)
  next different =>
    refine claimed.unclaimed ?_
    cases closer : link.closer <;> simp_all [Closer.claims, eq_comm]

theorem stepClosing_claimed (answers : link.Answers) (locked : link.Locked)
    (claimed : link.Claimed) (stepped : link.stepClosing move = some (effects, next)) :
    next.Claimed := by
  have free (closer : ∀ channel, link.closer.claims channel = false)
      (locks : next.locks = link.locks) : next.Claimed :=
    .of_unclaimed fun channel => by
      rw [locks]
      exact claimed.unclaimed (closer channel)
  unfold stepClosing at stepped
  split at stepped
  next =>
    obtain rfl : link.close.2 = next := congrArg Prod.snd (Option.some.inj stepped)
    cases closing : link.closing with
    | true =>
      rw [close, if_pos closing]
      exact claimed
    | false =>
      have absent : link.closer = .absent := by simpa [Answers, closing] using answers
      exact free (fun channel => by rw [absent]; rfl) (locks_close link)
  next =>
    split at stepped
    next waiting =>
      obtain ⟨-, ⟨⟩⟩ := Option.ite_none_left_eq_some.mp stepped
      exact claimed
    next channel locking =>
      obtain ⟨unqueued, ⟨⟩⟩ := Option.ite_none_left_eq_some.mp stepped
      intro other
      simp only [pushLock, Channels.get_modify]
      split
      next same =>
        simp [List.count_eq_zero.mpr unqueued, locking, Closer.claims, same]
      next => exact claimed other
    next => cases stepped
  next =>
    split at stepped
    next gate waiting first =>
      obtain rfl := congrArg Prod.snd (Option.some.inj stepped)
      exact free (fun channel => by rw [waiting]; rfl) (locks_release { link with gate })
    next => cases stepped
  next =>
    split at stepped
    next channel locking =>
      obtain ⟨first, passed⟩ := Option.ite_none_right_eq_some.mp stepped
      obtain rfl : (link.closeLock channel).2 = next := congrArg Prod.snd (Option.some.inj passed)
      have claims : link.closer.claims channel = true := by simp [locking, Closer.claims]
      unfold closeLock
      split
      next => exact claimed.pass claims first (apart_closeNext (link.popLock channel) channel).locks
      next =>
        intro other
        have before := claimed other
        rw [locking] at before
        exact before
    next => cases stepped
  next result =>
    split at stepped
    next channel stream shutting =>
      obtain rfl : (link.closeShut channel stream result).2 = next :=
        congrArg Prod.snd (Option.some.inj stepped)
      have claims : link.closer.claims channel = true := by simp [shutting, Closer.claims]
      exact claimed.pass claims (locked channel stream shutting)
        (apart_closeNext (link.popLock channel) channel).locks
    next => cases stepped
  next =>
    split at stepped
    next stopping =>
      obtain rfl := congrArg Prod.snd (Option.some.inj stepped)
      exact free (fun channel => by rw [stopping]; rfl) (apart_closeLast link).locks
    next => cases stepped
  next => cases stepped

end Claiming

structure Fit (link : Link) : Prop where
  sound : link.Sound
  answers : link.Answers
  locked : link.Locked
  claimed : link.Claimed

section Queueing

variable {link next : Link} {move : Move} {effects : List Effect} {channel : Channel}
  {holder : Holder} {rest : List Holder}

theorem Claimed.step (claimed : link.Claimed) (answers : link.Answers) (locked : link.Locked)
    (stepped : link.step move = some (effects, next)) : next.Claimed := by
  unfold Link.step at stepped
  split at stepped
  all_goals first
    | exact claimed.ease (stepEstablishing_queues stepped).eases
    | exact claimed.ease (stepWriting_eases stepped)
    | exact claimed.ease (.of_guard (stepReading_guard stepped))
    | exact stepClosing_claimed answers locked claimed stepped

theorem Fit.step (fit : link.Fit) (stepped : link.step move = some (effects, next)) : next.Fit where
  sound := fit.sound.change (step_change stepped)
  answers := fit.answers.change (step_change stepped)
  locked := fit.locked.step stepped
  claimed := fit.claimed.step fit.answers fit.locked stepped

theorem fit_fresh (role : Role) : (fresh role).Fit where
  sound := sound_fresh role
  answers := rfl
  locked := nofun
  claimed channel := by cases channel <;> exact Nat.zero_le _

structure Dismissal (link : Link) (move : Move) (effects : List Effect) (next : Link) : Prop where
  stepped : link.step move = some (effects, next)
  unasked : move.asks = false
  establishing : next.establishing = link.establishing
  state : next.state = link.state

theorem state_closeNext (link : Link) (channel : Channel) :
    (link.closeNext channel).2.state = link.state := by
  cases channel with
  | control => rfl
  | data =>
    unfold closeNext
    by_cases helper : link.helper = true
    next =>
      rw [if_pos helper]
    next =>
      rw [if_neg helper, closeLast, notify_eq]
      rfl

theorem Fit.dismiss_release (fit : link.Fit) (missing : link.writers.get channel = none)
    (queue : link.locks.get channel = .release :: rest) :
    ∃ move effects next, Dismissal link move effects next ∧
      next.locks.get channel = rest := by
  have first : (link.locks.get channel).head? = some .release := by rw [queue]; rfl
  -- The close is in no queue but that of the writer it waits for, so it can go on now.
  have claims : link.closer.claims channel = true := Classical.byContradiction fun free =>
    fit.claimed.unclaimed (Bool.not_eq_true _ ▸ free) (by simp [queue])
  have pops : ((link.popLock channel).closeNext channel).2.locks.get channel = rest := by
    rw [(apart_closeNext (link.popLock channel) channel).locks, popLock, Channels.get_modify,
      if_pos rfl, queue, List.tail_cons]
  have establishing := (closeNext_aside (link.popLock channel) channel).establishing
  have state := state_closeNext (link.popLock channel) channel
  cases closer : link.closer with
  | locking other =>
    obtain rfl : other = channel := by simpa [closer, Closer.claims] using claims
    refine ⟨.closeLock, ((link.popLock other).closeNext other).1, _,
      ⟨?_, rfl, establishing, state⟩, pops⟩
    simp only [Link.step, stepClosing, closer, first, if_true, closeLock, missing]
  | shutting other stream =>
    obtain rfl : other = channel := by simpa [closer, Closer.claims] using claims
    refine ⟨.closeShut (.ok ()), (link.closeShut other stream (.ok ())).1, _,
      ⟨?_, rfl, establishing, state⟩, pops⟩
    simp only [Link.step, stepClosing, closer, closeShut]
  | _ => simp [closer, Closer.claims] at claims

theorem dismiss_write {call : Nat} {bytes : Bytes} {left : Option Bytes}
    (missing : link.writers.get channel = none)
    (queue : link.locks.get channel = .write call bytes left :: rest) :
    ∃ move effects next, Dismissal link move effects next ∧
      (next.locks.get channel = rest ∨
        next.locks.get channel = withoutCall call rest) := by
  have pops : (link.popLock channel).locks.get channel = rest := by
    rw [popLock, Channels.get_modify, if_pos rfl, queue, List.tail_cons]
  cases closing : link.closing with
  | true =>
    refine ⟨.abort channel call, [.wrote call (.error (aborted channel))],
      { link with locks := link.locks.modify channel (withoutCall call) },
      ⟨?_, rfl, rfl, rfl⟩, .inr ?_⟩
    next =>
      have queued : link.hasCall channel call = true :=
        hasCall_iff.mpr ⟨bytes, left, by simp [queue]⟩
      simp only [Link.step, stepWriting, closing, queued, and_self, if_true]
    next => simp [queue, withoutCall]
  | false =>
    cases left with
    | none =>
      refine ⟨.begin channel, [.wrote call (.error (unconnected channel))],
        link.popLock channel, ⟨?_, rfl, rfl, rfl⟩, .inl pops⟩
      simp only [Link.step, stepWriting, closing, queue, missing, finishWrite]
    | some left =>
      cases left with
      | nil =>
        refine ⟨.flush channel (.ok ()), [.wrote call (.ok ())], link.popLock channel,
          ⟨?_, rfl, rfl, rfl⟩, .inl pops⟩
        simp only [Link.step, stepWriting, closing, queue, finishWrite]
      | cons byte left =>
        refine ⟨.putFails channel (unconnected channel),
          [.wrote call (.error (unconnected channel))], link.popLock channel,
          ⟨?_, rfl, rfl, rfl⟩, .inl pops⟩
        simp only [Link.step, stepWriting, closing, queue, finishWrite]

def GoesOn (link : Link) (later : List Happening) (last : Link) : Prop :=
  ∃ moves, link.journal moves = some (later, last) ∧ .close ∉ moves

theorem GoesOn.refl (link : Link) : link.GoesOn [] link :=
  ⟨[], rfl, List.not_mem_nil⟩

theorem GoesOn.cons {later : List Happening} {last : Link}
    (stepped : link.step move = some (effects, next)) (unasked : move.asks = false)
    (rest : next.GoesOn later last) : link.GoesOn (report move effects ++ later) last := by
  obtain ⟨moves, run, unclosed⟩ := rest
  refine ⟨move :: moves, journal_step stepped run, fun member => ?_⟩
  rcases List.mem_cons.mp member with rfl | more
  next => cases unasked
  next => exact unclosed more

theorem GoesOn.trans {first second : List Happening} {middle last : Link}
    (goesOn : link.GoesOn first middle) (later : middle.GoesOn second last) :
    link.GoesOn (first ++ second) last := by
  obtain ⟨moves, run, unclosed⟩ := goesOn
  induction moves generalizing link first with
  | nil =>
    obtain ⟨rfl, rfl⟩ := Prod.mk.inj (Option.some.inj run)
    exact later
  | cons move moves ih =>
    obtain ⟨effects, next, rest, stepped, more, rfl⟩ := journal_cons run
    have unasked : move.asks = false := by
      cases move <;> first | rfl | exact absurd (.head _) unclosed
    rw [List.append_assoc]
    exact .cons stepped unasked (ih more fun member => unclosed (.tail _ member))

def HasTurn (link : Link) (channel : Channel) : Prop :=
  ∃ later last, link.GoesOn later last ∧ last.Fit ∧ last.establishing = link.establishing ∧
    last.state = link.state ∧ (last.locks.get channel).head? = some .store

theorem HasTurn.now (fit : link.Fit) (first : (link.locks.get channel).head? = some .store) :
    link.HasTurn channel :=
  ⟨[], link, .refl link, fit, rfl, rfl, first⟩

theorem HasTurn.later (dismissal : Dismissal link move effects next)
    (later : next.HasTurn channel) : link.HasTurn channel := by
  obtain ⟨stepped, unasked, establishing, state⟩ := dismissal
  obtain ⟨later, last, goesOn, fit, same, same', first⟩ := later
  exact ⟨_, last, .cons stepped unasked goesOn, fit, same.trans establishing, same'.trans state,
    first⟩

theorem Sound.unstored {call : Nat} {made : Channels Stream} (sound : link.Sound)
    (storing : link.establishing = .storing call channel made) :
    link.writers.get channel = none := by
  have roomy := sound.roomy storing
  cases channel with
  | control => exact roomy.2.1 .control
  | data => exact roomy.2.1

theorem withoutCall_split (call : Nat) (front back : List Holder) :
    withoutCall call (front ++ .store :: back) =
      withoutCall call front ++ .store :: withoutCall call back := by
  simp [withoutCall]

theorem Fit.hasTurn_of_queue {call : Nat} {made : Channels Stream} {front back : List Holder}
    (fit : link.Fit) (storing : link.establishing = .storing call channel made)
    (queue : link.locks.get channel = front ++ .store :: back) : link.HasTurn channel := by
  -- A write that is aborted takes all of its call along, so what is in front may shrink by more
  -- than one.
  induction length : front.length using Nat.strong_induction_on generalizing link front back with
  | _ size ih =>
    cases front with
    | nil => exact .now fit (by rw [queue]; rfl)
    | cons holder front =>
      have goesOn {move : Move} {effects : List Effect} {next : Link} {front' back' : List Holder}
          (dismissal : Dismissal link move effects next)
          (queue : next.locks.get channel = front' ++ .store :: back')
          (shorter : front'.length < size) : link.HasTurn channel :=
        .later dismissal (ih _ shorter (fit.step dismissal.stepped)
          (dismissal.establishing.trans storing) queue rfl)
      have missing := fit.sound.unstored storing
      have fewer : front.length < size := by
        rw [← length]
        exact Nat.lt_succ_self _
      cases holder with
      | store => exact .now fit (by rw [queue]; rfl)
      | release =>
        obtain ⟨move, effects, next, dismissal, left⟩ := fit.dismiss_release missing queue
        exact goesOn dismissal left fewer
      | write other bytes left =>
        obtain ⟨move, effects, next, dismissal, left | left⟩ := dismiss_write missing queue
        next => exact goesOn dismissal left fewer
        next =>
          exact goesOn dismissal (left.trans (withoutCall_split other front back))
            (Nat.lt_of_le_of_lt (List.length_filter_le _ front) fewer)

theorem Fit.hasTurn {call : Nat} {made : Channels Stream} (fit : link.Fit)
    (storing : link.establishing = .storing call channel made) : link.HasTurn channel := by
  by_cases queued : .store ∈ link.locks.get channel
  next =>
    obtain ⟨front, back, queue⟩ := List.append_of_mem queued
    exact fit.hasTurn_of_queue storing queue
  next =>
    have stepped : link.step .queueUp = some ([], link.pushLock channel .store) := by
      simp only [Link.step, stepEstablishing, storing, queued, if_false]
    have queue : (link.pushLock channel .store).locks.get channel =
        link.locks.get channel ++ .store :: [] := by
      simp [pushLock]
    exact .later ⟨stepped, rfl, rfl, rfl⟩ ((fit.step stepped).hasTurn_of_queue storing queue)

end Queueing

end TpmRelay.Link
