import TpmRelay.Proofs.Link.Story

set_option autoImplicit false

namespace TpmRelay.Link

def Effect.concerns : Effect → Bool
  | launch .. | established .. => true
  | _ => false

structure Aside (link : Link) (effects : List Effect) (next : Link) : Prop where
  unconcerned : ∀ effect ∈ effects, effect.concerns = false
  establishing : next.establishing = link.establishing
  gate : ∀ call frontend, .listen call frontend ∈ next.gate → .listen call frontend ∈ link.gate

section Aside

variable {link next : Link} {move : Move} {effects : List Effect}

theorem Aside.of_gate (unconcerned : ∀ effect ∈ effects, effect.concerns = false)
    (establishing : next.establishing = link.establishing) (gate : next.gate = link.gate) :
    Aside link effects next :=
  ⟨unconcerned, establishing, fun _ _ member => gate ▸ member⟩

theorem Aside.of_made {progress : Progress} (made : some progress = some (effects, next))
    (aside : Aside link progress.1 progress.2) : Aside link effects next := by
  obtain rfl := Option.some.inj made
  exact aside

theorem unconcerned_tell {effect : Effect} (link : Link) (last : effect.concerns = false) :
    ∀ effect' ∈ link.telling ++ [effect], effect'.concerns = false := by
  have quiet : ∀ effect' ∈ link.telling, effect'.concerns = false := by
    unfold telling
    split <;> simp [Effect.concerns]
  exact List.forall_mem_append.mpr ⟨quiet, by simpa using last⟩

theorem stepWriting_aside (stepped : link.stepWriting move = some (effects, next)) :
    Aside link effects next := by
  have queues {effects' : List Effect} {locks : Channels (List Holder)}
      (stepped : some (effects', { link with locks }) = some (effects, next))
      (unconcerned : ∀ effect ∈ effects', effect.concerns = false) : Aside link effects next := by
    obtain ⟨rfl, rfl⟩ := Prod.mk.inj (Option.some.inj stepped)
    exact .of_gate unconcerned rfl rfl
  unfold stepWriting at stepped
  split at stepped
  next => exact queues stepped (by simp)
  next =>
    split at stepped
    next =>
      split at stepped
      next => exact queues stepped (by simp [Effect.concerns])
      next => exact queues stepped (by simp)
    next => cases stepped
  next =>
    split at stepped
    next =>
      obtain ⟨-, put⟩ := Option.ite_none_right_eq_some.mp stepped
      exact queues put (by simp [Effect.concerns])
    next => cases stepped
  next =>
    split at stepped
    next => exact queues stepped (by simp [Effect.concerns])
    next => cases stepped
  next =>
    split at stepped
    next => exact queues stepped (by simp [Effect.concerns])
    next => cases stepped
  next =>
    obtain ⟨-, aborted⟩ := Option.ite_none_right_eq_some.mp stepped
    exact queues aborted (by simp [Effect.concerns])
  next =>
    obtain ⟨-, forgotten⟩ := Option.ite_none_right_eq_some.mp stepped
    exact queues forgotten (by simp)
  next => cases stepped

theorem stepReading_aside (stepped : link.stepReading move = some (effects, next)) :
    Aside link effects next := by
  unfold stepReading at stepped
  split at stepped
  next => exact .of_made stepped (.of_gate (by simp [Effect.concerns]) rfl rfl)
  next =>
    have same : link.resume.2.establishing = link.establishing ∧
        link.resume.2.gate = link.gate := by
      unfold resume
      split <;> exact ⟨rfl, rfl⟩
    exact .of_made stepped (.of_gate (by simp [Effect.concerns]) same.1 same.2)
  next =>
    split at stepped
    next =>
      exact .of_made (Option.ite_none_right_eq_some.mp stepped).2
        (.of_gate (by simp [enqueue, Effect.concerns]) rfl rfl)
    next => cases stepped
  next =>
    split at stepped
    next =>
      refine .of_made stepped ?_
      simp only [readEnd, notify_eq]
      split
      next => exact .of_gate (unconcerned_tell _ rfl) rfl rfl
      next => exact .of_gate (by simp [Effect.concerns]) rfl rfl
    next => cases stepped
  next => cases stepped

theorem release_aside (link : Link) : Aside link link.release.1 link.release.2 := by
  have aborts (reader : Reader) : ∀ effect ∈ (abortReader reader).1, effect.concerns = false := by
    cases reader <;> simp [abortReader, Effect.concerns]
  refine .of_gate (fun effect member => ?_) rfl rfl
  simp only [release, List.mem_append] at member
  rcases member with ((unlistened | control) | data) | paused
  next =>
    obtain ⟨listener, -, rfl⟩ := List.mem_map.mp unlistened
    rfl
  next => exact aborts _ effect control
  next => exact aborts _ effect data
  next =>
    cases streams : link.paused with
    | none => simp [streams] at paused
    | some streams' =>
      simp only [streams, List.mem_cons, List.not_mem_nil, or_false] at paused
      rcases paused with rfl | rfl <;> rfl

theorem close_aside (link : Link) : Aside link link.close.1 link.close.2 := by
  unfold close
  split
  next => exact .of_gate (by simp [Effect.concerns]) rfl rfl
  next =>
    dsimp only
    split
    next =>
      obtain ⟨unconcerned, establishing, gate⟩ :=
        release_aside { link with closing := true, state := .closed }
      exact ⟨unconcerned, establishing, gate⟩
    next => exact .of_gate (by simp) rfl rfl

theorem closeLast_aside (link : Link) : Aside link link.closeLast.1 link.closeLast.2 := by
  rw [closeLast, notify_eq]
  exact .of_gate (unconcerned_tell _ rfl) rfl rfl

theorem closeNext_aside (link : Link) (channel : Channel) :
    Aside link (link.closeNext channel).1 (link.closeNext channel).2 := by
  cases channel with
  | control => exact .of_gate (List.forall_mem_nil _) rfl rfl
  | data =>
    unfold closeNext
    by_cases helper : link.helper = true
    next =>
      rw [if_pos helper]
      exact .of_gate (by simp [Effect.concerns]) rfl rfl
    next =>
      rw [if_neg helper]
      exact closeLast_aside link

theorem closeLock_aside (link : Link) (channel : Channel) :
    Aside link (link.closeLock channel).1 (link.closeLock channel).2 := by
  unfold closeLock
  split
  next =>
    obtain ⟨unconcerned, establishing, gate⟩ := closeNext_aside (link.popLock channel) channel
    exact ⟨unconcerned, establishing, gate⟩
  next => exact .of_gate (List.forall_mem_nil _) rfl rfl

theorem closeShut_aside (link : Link) (channel : Channel) (stream : Stream)
    (result : Except Fault Unit) : Aside link (link.closeShut channel stream result).1
      (link.closeShut channel stream result).2 := by
  obtain ⟨unconcerned, establishing, gate⟩ := closeNext_aside (link.popLock channel) channel
  refine ⟨List.forall_mem_append.mpr ⟨?_, unconcerned⟩, establishing, gate⟩
  cases result <;> simp [Effect.concerns]

theorem stepClosing_aside (stepped : link.stepClosing move = some (effects, next)) :
    Aside link effects next := by
  unfold stepClosing at stepped
  split at stepped
  next => exact .of_made stepped (close_aside link)
  next =>
    split at stepped
    next =>
      exact .of_made (Option.ite_none_left_eq_some.mp stepped).2
        ⟨List.forall_mem_nil _, rfl, by simp⟩
    next =>
      exact .of_made (Option.ite_none_left_eq_some.mp stepped).2
        (.of_gate (List.forall_mem_nil _) rfl rfl)
    next => cases stepped
  next =>
    split at stepped
    next gate _ first =>
      obtain ⟨unconcerned, establishing, same⟩ := release_aside { link with gate }
      refine .of_made stepped ⟨unconcerned, establishing, fun call frontend member => ?_⟩
      exact first ▸ .tail _ (same call frontend member)
    next => cases stepped
  next =>
    split at stepped
    next channel _ =>
      exact .of_made (Option.ite_none_right_eq_some.mp stepped).2 (closeLock_aside link channel)
    next => cases stepped
  next result =>
    split at stepped
    next channel stream _ => exact .of_made stepped (closeShut_aside link channel stream result)
    next => cases stepped
  next =>
    split at stepped
    next => exact .of_made stepped (closeLast_aside link)
    next => cases stepped
  next => cases stepped

theorem step_aside (stepped : link.step move = some (effects, next)) :
    link.stepEstablishing move = some (effects, next) ∨
      Aside link effects next ∧ move.attempts = false ∧
        ∀ now : Story, now.add (.made move) = { now with asked := now.asked || move.asks } := by
  cases kind : move with
  | connect | listen | turn | bound | unbound | connected | refused | notice | queueUp | store
  | abandon | cancel => exact .inl (by simpa [step, kind] using stepped)
  | write | begin | put | putFails | flush | abort | forget =>
    have written : link.stepWriting move = some (effects, next) := by
      simpa [step, kind] using stepped
    exact .inr ⟨stepWriting_aside written, rfl, by simp [Story.add, Move.asks]⟩
  | takeEvents | resume | read | readEnd =>
    have read : link.stepReading move = some (effects, next) := by
      simpa [step, kind] using stepped
    exact .inr ⟨stepReading_aside read, rfl, by simp [Story.add, Move.asks]⟩
  | close | closeQueueUp | closeAlone | closeLock | closeShut | stopped =>
    have closed : link.stepClosing move = some (effects, next) := by
      simpa [step, kind] using stepped
    exact .inr ⟨stepClosing_aside closed, rfl, by simp [Story.add, Move.asks]⟩

theorem mem_of_mem_nextGate (link : Link) : ∀ waiter ∈ link.nextGate, waiter ∈ link.gate := by
  intro waiter member
  unfold nextGate at member
  split at member
  next => exact member
  next => exact List.mem_of_mem_tail member

theorem Change.gate (change : Change link move effects next) (moves : move.waits = false) :
    ∀ waiter ∈ next.gate, waiter ∈ link.gate := by
  cases change with
  | waits waits => simp [moves] at waits
  | lateTurn | settles | storesData => exact link.mem_of_mem_nextGate
  | closesAlone _ first => exact fun waiter member => first ▸ .tail _ member
  | _ => exact fun _ => id

theorem cancel_cases {call : Nat} (cancelled : link.cancel call = some (effects, next)) :
    (∀ effect ∈ effects, effect.concerns = false) ∧
      (link.establishing.owner? = some call ∧ next.establishing = .absent ∨
        link.establishing.owner? ≠ some call ∧ next.establishing = link.establishing) ∧
      ∀ waiter ∈ next.gate, waiter ∈ link.gate := by
  have unlistened (listeners : List Listener) :
      ∀ effect ∈ unlistenAll listeners, effect.concerns = false := by
    simp [unlistenAll, Effect.concerns]
  have dropped (streams : List Stream) :
      ∀ effect ∈ streams.flatMap dropBoth, effect.concerns = false := by
    intro effect member
    obtain ⟨stream, -, half⟩ := List.mem_flatMap.mp member
    obtain rfl | rfl : effect = .drop stream .reader ∨ effect = .drop stream .writer := by
      simpa [dropBoth] using half
    next => rfl
    next => rfl
  have left := link.mem_of_mem_nextGate
  simp only [cancel, leaveGate_eq] at cancelled
  split at cancelled
  next owner =>
    split at cancelled
    next => cases cancelled
    next =>
      obtain ⟨rfl, rfl⟩ := Prod.mk.inj (Option.some.inj cancelled)
      exact ⟨unlistened _, .inl ⟨owner, rfl⟩, left⟩
    next =>
      obtain ⟨rfl, rfl⟩ := Prod.mk.inj (Option.some.inj cancelled)
      exact ⟨List.forall_mem_append.mpr ⟨dropped _, unlistened _⟩, .inl ⟨owner, rfl⟩, left⟩
    next =>
      obtain ⟨rfl, rfl⟩ := Prod.mk.inj (Option.some.inj cancelled)
      exact ⟨by simp [dropBoth, Effect.concerns], .inl ⟨owner, rfl⟩, left⟩
    next =>
      obtain ⟨rfl, rfl⟩ := Prod.mk.inj (Option.some.inj cancelled)
      exact ⟨by simp [dropBoth, Effect.concerns], .inl ⟨owner, rfl⟩, left⟩
    next =>
      obtain ⟨rfl, rfl⟩ := Prod.mk.inj (Option.some.inj cancelled)
      exact ⟨dropped _, .inl ⟨owner, rfl⟩, left⟩
  next other =>
    split at cancelled
    next =>
      obtain ⟨rfl, rfl⟩ := Prod.mk.inj (Option.some.inj cancelled)
      exact ⟨List.forall_mem_nil _, .inr ⟨other, rfl⟩,
        fun waiter member => (List.mem_filter.mp member).1⟩
    next => cases cancelled

theorem listens_of_step {call : Nat} {frontend : String}
    (stepped : link.step move = some (effects, next))
    (queued : .listen call frontend ∈ next.gate) :
    .listen call frontend ∈ link.gate ∨ move = .listen call frontend := by
  rcases step_aside stepped with establishing | ⟨aside, -, -⟩
  next =>
    cases waits : move.waits with
    | false => exact .inl ((step_change stepped).gate waits _ queued)
    | true =>
      cases move with
      | listen other place =>
        obtain ⟨-, listened⟩ := Option.ite_none_right_eq_some.mp establishing
        obtain ⟨-, rfl⟩ := Prod.mk.inj (Option.some.inj listened)
        rcases List.mem_append.mp queued with before | last
        next => exact .inl before
        next =>
          obtain ⟨rfl, rfl⟩ : call = other ∧ frontend = place := by simpa using last
          exact .inr rfl
      | cancel other => exact .inl ((cancel_cases establishing).2.2 _ queued)
      | queueUp =>
        simp only [stepEstablishing] at establishing
        split at establishing
        next =>
          obtain ⟨-, ⟨⟩⟩ := Option.ite_none_left_eq_some.mp establishing
          exact .inl queued
        next => cases establishing
      | write | begin | put | putFails | flush | abort | forget | closeQueueUp =>
        cases establishing
      | _ => cases waits
  next => exact .inl (aside.gate _ _ queued)

end Aside

end TpmRelay.Link
