import TpmRelay.Proofs.Link.Story

set_option autoImplicit false

namespace TpmRelay

namespace Channels

variable {α : Type} {pair : Channels (Option α)} {channel : Channel} {value : α}

def lists (pair : Channels (Option α)) : Channels (List α) :=
  ⟨pair.control.toList, pair.data.toList⟩

theorem get_lists (pair : Channels (Option α)) (channel : Channel) :
    pair.lists.get channel = (pair.get channel).toList := by
  cases channel <;> rfl

theorem lists_set (missing : pair.get channel = none) (value : α) :
    pair.lists.modify channel (· ++ [value]) = (pair.set channel (some value)).lists := by
  obtain ⟨control, data⟩ := pair
  cases channel with
  | control =>
    obtain rfl : control = none := missing
    rfl
  | data =>
    obtain rfl : data = none := missing
    rfl

theorem get_lists_eq_nil : pair.lists.get channel = [] ↔ pair.get channel = none := by
  rw [get_lists]
  cases pair.get channel <;> simp

theorem length_lists_le (pair : Channels (Option α)) (channel : Channel) :
    (pair.lists.get channel).length ≤ 1 := by
  rw [get_lists]
  cases pair.get channel <;> simp

theorem mem_present (found : pair.get channel = some value) : value ∈ pair.present := by
  cases channel <;> simp_all [present, get]

theorem exists_missing
    (partly : ∀ control data, pair.control = some control → pair.data = some data → False) :
    ∃ channel, pair.get channel = none := by
  obtain ⟨control, data⟩ := pair
  cases control with
  | none => exact ⟨.control, rfl⟩
  | some control =>
    cases data with
    | none => exact ⟨.data, rfl⟩
    | some data => exact (partly control data rfl rfl).elim

theorem missing_of_set_missing {other : Channel} (missing : pair.get channel = none)
    (still : (pair.set channel (some value)).get other = none) : pair = ⟨none, none⟩ := by
  obtain ⟨control, data⟩ := pair
  cases channel <;> cases other <;> simp_all [get, set]

end Channels

namespace Link

/-- Every listener that was bound is given up. -/
def Unlistened (past : List Happening) : Prop :=
  ∀ channel, ∀ listener ∈ (story past).bound.get channel, .did (.unlisten listener) ∈ past

/-- The stream could not be shut down and was dropped with that. -/
def ShutFailed (past : List Happening) (stream : Stream) : Prop :=
  ∃ before fault effects after,
    past = before ++ report (.abandon (.error fault)) (dropBoth stream ++ effects) ++ after

/-- The stream is dropped, and a link that waits has tried to shut it down. -/
def Dropped (role : Role) (past : List Happening) (stream : Stream) : Prop :=
  (∀ half, .did (.drop stream half) ∈ past) ∧
    (role = .waiting → .did (.shut stream) ∈ past ∨ ShutFailed past stream)

def Told (role : Role) (past : List Happening) : Establishing → Prop
  | .absent => (story past).attempted = false → ∃ asked, story past = { asked }
  | .binding call frontend bound =>
    (∃ asked, story past = { attempted := true, asked, bound := bound.lists }) ∧
    (∃ channel, bound.get channel = none) ∧ .made (.listen call frontend) ∈ past
  | .making _ none made =>
    role = .dialing ∧ (∃ asked, story past = { attempted := true, asked, made := made.lists }) ∧
    ∃ channel, made.get channel = none
  | .making _ (some listeners) made =>
    (∃ asked task, story past =
      { attempted := true, asked, made := made.lists, launches := [(task, .ok ())]
        bound := ⟨[listeners.control], [listeners.data]⟩ }) ∧
    ∃ channel, made.get channel = none
  | .storing _ _ made =>
    (story past).failures = [] ∧ (story past).made = ⟨[made.control], [made.data]⟩
  | .abandoning _ error left =>
    (story past).verdict = .error error ∧ (∃ channel, (story past).made.get channel = []) ∧
    Unlistened past ∧
    ∀ channel, ∀ stream ∈ (story past).made.get channel, stream ∈ left ∨ Dropped role past stream

structure Limited (past : List Happening) : Prop where
  bound : ∀ channel, ((story past).bound.get channel).length ≤ 1
  made : ∀ channel, ((story past).made.get channel).length ≤ 1
  launches : (story past).launches = [] ∨ ∃ call frontend control data result,
    .made (.listen call frontend) ∈ past ∧ (story past).bound = ⟨[control], [data]⟩ ∧
    (story past).launches =
      [({ control := control.endpoint, data := data.endpoint, frontend }, result)]

def Story.leaves (story : Story) : Except Error Unit → State
  | .ok () => .ready
  | .error _ => if story.asked then .closed else .failed

/-- A call has come back with this result, and `seen` is all that was seen until then. -/
structure Outcome (role : Role) (seen : List Happening) (result : Except Error Unit) (next : Link) :
    Prop where
  verdict : result = (story seen).verdict
  success : result = .ok () ↔
    (∀ channel, (story seen).made.get channel ≠ []) ∧ (story seen).asked = false
  state : next.state = (story seen).leaves result
  ended : next.establishing = .absent
  installed : result = .ok () → ∃ made : Channels Stream,
    (story seen).made = ⟨[made.control], [made.data]⟩ ∧
    next.writers = ⟨some made.control, some made.data⟩ ∧ next.paused = some made
  released : (∃ error, result = .error error) → (story seen).asked = false →
    Unlistened seen ∧ ∀ channel, ∀ stream ∈ (story seen).made.get channel, Dropped role seen stream

section Outcome

variable {role : Role} {past seen : List Happening} {link last next : Link} {move : Move}
  {effects : List Effect} {call : Nat} {error : Error}

@[simp] theorem launched_unlistenAll (listeners : List Listener) :
    (unlistenAll listeners).flatMap Effect.launched = [] := by
  simp [unlistenAll, Effect.launched]

@[simp] theorem launched_dropAll (streams : List Stream) :
    (streams.flatMap dropBoth).flatMap Effect.launched = [] := by
  simp [List.flatMap_assoc, dropBoth, Effect.launched]

@[simp] theorem launched_settleCall (link : Link) (call : Nat) (result : Except Error Unit) :
    (link.settleCall call result).1.flatMap Effect.launched = [] := rfl

theorem silent_unlistenAll (listeners : List Listener) (call : Nat) (result : Except Error Unit) :
    .established call result ∉ unlistenAll listeners := by
  simp [unlistenAll]

theorem silent_dropAll (streams : List Stream) (call : Nat) (result : Except Error Unit) :
    .established call result ∉ streams.flatMap dropBoth := by
  simp [dropBoth]

theorem subset_report : past ⊆ past ++ report move effects :=
  List.subset_append_left _ _

theorem did_mem_report {effect : Effect} (member : effect ∈ effects) :
    .did effect ∈ past ++ report move effects := by
  simp [report, member]

theorem Dropped.later {stream : Stream} (dropped : Dropped role past stream)
    (before after : List Happening) : Dropped role (before ++ past ++ after) stream := by
  have more : past ⊆ before ++ past ++ after :=
    List.subset_append_of_subset_left _ (List.subset_append_right _ _)
  obtain ⟨halves, shut⟩ := dropped
  refine ⟨fun half => more (halves half), fun waits => ?_⟩
  rcases shut waits with shut | ⟨before', fault, effects, after', rfl⟩
  next => exact .inl (more shut)
  next => exact .inr ⟨before ++ before', fault, effects, after' ++ after, by simp⟩

theorem Dropped.append {stream : Stream} (dropped : Dropped role past stream)
    (after : List Happening) : Dropped role (past ++ after) stream :=
  dropped.later [] after

theorem Dropped.prepend {stream : Stream} (dropped : Dropped role past stream)
    (before : List Happening) : Dropped role (before ++ past) stream := by
  simpa using dropped.later before []

theorem Limited.keep (limited : Limited past) (bound : (story seen).bound = (story past).bound)
    (made : (story seen).made = (story past).made)
    (launches : (story seen).launches = (story past).launches) (more : past ⊆ seen) :
    Limited seen where
  bound channel := bound ▸ limited.bound channel
  made channel := made ▸ limited.made channel
  launches := by
    rw [launches, bound]
    rcases limited.launches with none | ⟨call, frontend, control, data, result, asked, both, task⟩
    next => exact .inl none
    next => exact .inr ⟨call, frontend, control, data, result, more asked, both, task⟩

theorem Limited.still {asked : Bool} {failures : List Error} (limited : Limited past)
    (adds : (story past).add (.made move) = { story past with asked, failures })
    (quiet : effects.flatMap Effect.launched = []) : Limited (past ++ report move effects) := by
  have now := story_of_quiet past move quiet
  rw [adds] at now
  exact limited.keep (by rw [now]) (by rw [now]) (by rw [now]) subset_report

structure Sequel (role : Role) (call? : Option Nat) (seen : List Happening) (effects : List Effect)
    (next : Link) : Prop where
  told : Told role seen next.establishing
  limited : Limited seen
  returns : ∀ call result, .established call result ∈ effects →
    call? = some call ∧ Outcome role seen result next
  stays : ∀ call, call? = some call →
    next.establishing.owner? = some call ∨ ∃ result, .established call result ∈ effects

theorem sequel_of_settle (disposal : List Effect) {result : Except Error Unit}
    (attempted : (story seen).attempted = true) (limited : Limited seen)
    (silent : ∀ call result, .established call result ∉ disposal)
    (outcome : Outcome role seen result (last.settleCall call result).2) :
    Sequel role (some call) seen (disposal ++ (last.settleCall call result).1)
      (last.settleCall call result).2 where
  told untried := by simp [attempted] at untried
  limited := limited
  returns other result' member := by
    rcases List.mem_append.mp member with disposed | settled
    next => exact absurd disposed (silent other result')
    next =>
      obtain ⟨rfl, rfl⟩ : other = call ∧ result' = result := by simpa [settleCall] using settled
      exact ⟨rfl, outcome⟩
  stays other same := .inr ⟨result, by simp [settleCall, Option.some.inj same]⟩

theorem settleCall_keeps (link : Link) (call : Nat) (result : Except Error Unit) :
    (link.settleCall call result).2.state = link.state ∧
      (link.settleCall call result).2.writers = link.writers ∧
      (link.settleCall call result).2.paused = link.paused := by
  rw [settleCall, leaveGate_eq]
  exact ⟨rfl, rfl, rfl⟩

theorem fall_sequel {bound : Channels (List Listener)} {failures : List Error}
    (disposal : List Effect)
    (adds : (story past).add (.made move) = { story past with bound, failures })
    (limited : Limited (past ++ report move (disposal ++ (last.settleCall call (.error error)).1)))
    (attempted : (story past).attempted = true)
    (verdict : ({ story past with failures } : Story).verdict = .error error)
    (failing : last.state = if (story past).asked then .closed else .failed)
    (unmade : ∃ channel, (story past).made.get channel = [])
    (silent : ∀ call result, .established call result ∉ disposal)
    (unlistened : ∀ channel, ∀ listener ∈ bound.get channel,
      .did (.unlisten listener) ∈ past ∨ .unlisten listener ∈ disposal)
    (dropped : ∀ channel, ∀ stream ∈ (story past).made.get channel,
      Dropped role past stream ∨ Dropped role (report move disposal) stream) :
    Sequel role (some call)
      (past ++ report move (disposal ++ (last.settleCall call (.error error)).1))
      (disposal ++ (last.settleCall call (.error error)).1)
      (last.settleCall call (.error error)).2 := by
  have now := story_report past move (disposal ++ (last.settleCall call (.error error)).1)
  rw [adds] at now
  refine sequel_of_settle disposal ?_ limited silent ⟨?_, ?_, ?_, rfl, nofun, fun _ _ => ⟨?_, ?_⟩⟩
  next => rw [now]; exact attempted
  next => rw [now]; exact verdict.symm
  next =>
    rw [now]
    obtain ⟨channel, unmade⟩ := unmade
    exact ⟨nofun, fun made => absurd unmade (made.1 channel)⟩
  next => rw [now]; exact (settleCall_keeps ..).1.trans failing
  next =>
    intro channel listener member
    rw [now] at member
    rcases unlistened channel listener member with before | now'
    next => exact subset_report before
    next => exact did_mem_report (List.mem_append_left _ now')
  next =>
    intro channel stream member
    rw [now] at member
    rcases dropped channel stream member with before | now'
    next => exact before.append _
    next =>
      have whole := (now'.append ((last.settleCall call (.error error)).1.map .did)).prepend past
      simpa [report] using whole

section Binding

variable {frontend : String} {bound : Channels (Option Listener)} {channel : Channel}

theorem unbind_sequel (told : Told role past (.binding call frontend bound))
    (limited : Limited past) (fault : Fault)
    (failing : link.state.fail = if (story past).asked then .closed else .failed) :
    Sequel role (some call)
      (past ++ report (.unbound channel fault) (link.unbind call bound fault).1)
      (link.unbind call bound fault).1 (link.unbind call bound fault).2 := by
  obtain ⟨⟨asked, tells⟩, -, -⟩ := told
  refine fall_sequel (unlistenAll bound.present) rfl (limited.still rfl (by simp)) (by rw [tells])
    ?_ failing ⟨channel, ?_⟩ (silent_unlistenAll _) ?_ ?_
  next =>
    rw [tells]
    rfl
  next =>
    rw [tells]
    cases channel <;> rfl
  next =>
    intro other listener member
    rw [tells, Channels.get_lists, Option.mem_toList] at member
    exact .inr (List.mem_map_of_mem (Channels.mem_present member))
  next =>
    intro other stream member
    rw [tells] at member
    cases other <;> cases member

theorem launch_falls (link : Link) (call : Nat) (frontend : String) {launching : Launching}
    (listeners : Channels Listener)
    (fails : launching.error? = some error) :
    ∃ tried : List Effect, link.launch call frontend listeners launching =
        (tried ++ unlistenAll listeners.toList ++ (link.fail.settleCall call (.error error)).1,
          (link.fail.settleCall call (.error error)).2) ∧
      (tried = [] ∨
        ∃ fault, tried = [.launch (launch.task frontend listeners) (.error fault)]) := by
  cases launching with
  | unplaced fault =>
    obtain rfl : .transport fault = error := Option.some.inj fails
    exact ⟨[], rfl, .inl rfl⟩
  | refused fault =>
    obtain rfl : .helper fault = error := Option.some.inj fails
    exact ⟨_, rfl, .inr ⟨fault, rfl⟩⟩
  | started => cases fails

theorem add_second {listener control data : Listener} {asked : Bool} (launching : Launching)
    (tells : story past = { attempted := true, asked, bound := bound.lists })
    (missing : bound.get channel = none)
    (both : bound.set channel (some listener) = ⟨some control, some data⟩) :
    (story past).add (.made (.bound channel listener launching)) =
      { story past with bound := ⟨[control], [data]⟩, failures := launching.error?.toList } := by
  have second : bound.lists ≠ ⟨[], []⟩ := by
    obtain ⟨first, other⟩ := bound
    cases channel <;> simp_all [Channels.lists, Channels.set]
  rw [tells, Story.add, Channels.lists_set missing, both, Story.launching?, if_neg second]
  rfl

theorem Limited.of_launch {control data : Listener} {listens : Nat}
    (limited : Limited past) (more : past ⊆ seen)
    (asked : .made (.listen listens frontend) ∈ past)
    (bound : (story seen).bound = ⟨[control], [data]⟩)
    (made : (story seen).made = (story past).made)
    (launches : (story seen).launches = [] ∨ ∃ result, (story seen).launches =
      [({ control := control.endpoint, data := data.endpoint, frontend }, result)]) :
    Limited seen where
  bound channel := by rw [bound]; cases channel <;> exact Nat.le_refl 1
  made channel := made ▸ limited.made channel
  launches := launches.imp_right fun ⟨result, task⟩ =>
    ⟨listens, frontend, control, data, result, more asked, bound, task⟩

theorem launch_sequel {listener control data : Listener} (launching : Launching)
    (told : Told role past (.binding call frontend bound)) (limited : Limited past)
    (failing : link.state.fail = if (story past).asked then .closed else .failed)
    (missing : bound.get channel = none)
    (both : bound.set channel (some listener) = ⟨some control, some data⟩) :
    Sequel role (some call)
      (past ++ report (.bound channel listener launching)
        (link.launch call frontend ⟨control, data⟩ launching).1)
      (link.launch call frontend ⟨control, data⟩ launching).1
      (link.launch call frontend ⟨control, data⟩ launching).2 := by
  obtain ⟨⟨asked, tells⟩, -, listens⟩ := told
  have adds := add_second launching tells missing both
  have now (effects : List Effect) :
      story (past ++ report (.bound channel listener launching) effects) =
        { attempted := true, asked, bound := ⟨[control], [data]⟩
          launches := effects.flatMap Effect.launched, failures := launching.error?.toList } := by
    rw [story_report, adds, tells]
    rfl
  have limited {effects : List Effect} (launches : effects.flatMap Effect.launched = [] ∨
      ∃ result, effects.flatMap Effect.launched =
        [(launch.task frontend ⟨control, data⟩, result)]) :
      Limited (past ++ report (.bound channel listener launching) effects) := by
    refine limited.of_launch subset_report listens (congrArg Story.bound (now effects)) ?_ ?_
    next => rw [now, tells]
    next =>
      rw [now]
      exact launches
  cases fails : launching.error? with
  | none =>
    obtain rfl : launching = .started := by cases launching <;> simp_all [Launching.error?]
    exact ⟨⟨⟨asked, _, now _⟩, .control, rfl⟩, limited (.inr ⟨.ok (), rfl⟩), by simp [launch],
      fun _ => .inl⟩
  | some error =>
    obtain ⟨tried, launched, attempts⟩ := launch_falls link call frontend ⟨control, data⟩ fails
    rw [launched]
    refine fall_sequel (tried ++ unlistenAll [control, data]) adds (limited ?_) (by rw [tells]) ?_
      failing ⟨channel, ?_⟩ (fun other result => ?_) ?_ ?_
    next =>
      rcases attempts with rfl | ⟨fault, rfl⟩
      next => exact .inl (by simp)
      next => exact .inr ⟨.error fault, by simp [Effect.launched]⟩
    next =>
      rw [tells, fails]
      rfl
    next =>
      rw [tells]
      cases channel <;> rfl
    next => rcases attempts with rfl | ⟨fault, rfl⟩ <;> simp [unlistenAll]
    next =>
      intro other last member
      refine .inr (List.mem_append_right _ (List.mem_map_of_mem ?_))
      cases other <;> simp_all [Channels.get]
    next =>
      intro other stream member
      rw [tells] at member
      cases other <;> cases member

theorem bind_sequel (listener : Listener) (launching : Launching)
    (told : Told role past (.binding call frontend bound)) (limited : Limited past)
    (failing : link.state.fail = if (story past).asked then .closed else .failed)
    (missing : bound.get channel = none) :
    Sequel role (some call)
      (past ++ report (.bound channel listener launching)
        (link.bind call frontend bound channel listener launching).1)
      (link.bind call frontend bound channel listener launching).1
      (link.bind call frontend bound channel listener launching).2 := by
  simp only [bind]
  split
  next control data first second =>
    refine launch_sequel launching told limited failing missing ?_
    rw [← first, ← second]
  next partly =>
    obtain ⟨other, still⟩ := Channels.exists_missing partly
    obtain ⟨⟨asked, tells⟩, -, listens⟩ := told
    have now : story (past ++ report (.bound channel listener launching) []) =
        { attempted := true, asked, bound := (bound.set channel (some listener)).lists } := by
      rw [story_of_quiet _ _ rfl, tells, Story.add, Channels.lists_set missing,
        Channels.missing_of_set_missing missing still]
      rfl
    refine ⟨⟨⟨asked, now⟩, ⟨other, still⟩, subset_report listens⟩, ⟨?_, ?_, ?_⟩, by simp,
      fun _ => .inl⟩
    all_goals rw [now]
    next => exact Channels.length_lists_le _
    next =>
      intro other
      cases other <;> exact Nat.zero_le 1
    next => exact .inl rfl

end Binding

section Making

variable {listeners : Option (Channels Listener)} {made : Channels (Option Stream)}
  {channel : Channel}

theorem Told.making (told : Told role past (.making call listeners made)) :
    (story past).attempted = true ∧ (story past).made = made.lists ∧
      (story past).failures = [] ∧ ∃ channel, made.get channel = none := by
  cases listeners with
  | none =>
    obtain ⟨-, ⟨asked, tells⟩, missing⟩ := told
    rw [tells]
    exact ⟨rfl, rfl, rfl, missing⟩
  | some listeners =>
    obtain ⟨⟨asked, task, tells⟩, missing⟩ := told
    rw [tells]
    exact ⟨rfl, rfl, rfl, missing⟩

theorem giveUp_sequel {failures : List Error}
    (told : Told role past (.making call listeners made)) (limited : Limited past)
    (adds : (story past).add (.made move) = { story past with failures })
    (verdict : ({ story past with failures } : Story).verdict = .error error)
    (failing : link.state.fail = if (story past).asked then .closed else .failed) :
    Sequel role (some call) (past ++ report move (link.giveUp call listeners made error).1)
      (link.giveUp call listeners made error).1 (link.giveUp call listeners made error).2 := by
  obtain ⟨attempted, connects, -, other, missing⟩ := told.making
  have unmade : (story past).made.get other = [] := by
    rw [connects, Channels.get_lists, missing]
    rfl
  have there {channel : Channel} {stream : Stream}
      (member : stream ∈ (story past).made.get channel) : stream ∈ made.present := by
    rw [connects, Channels.get_lists, Option.mem_toList] at member
    exact Channels.mem_present member
  cases listeners with
  | none =>
    obtain ⟨dials, ⟨asked, tells⟩, -⟩ := told
    refine fall_sequel (made.present.flatMap dropBoth) adds (limited.still adds (by simp)) attempted
      verdict failing ⟨other, unmade⟩ (silent_dropAll _) ?_ ?_
    next =>
      intro channel listener member
      rw [tells] at member
      cases channel <;> cases member
    next =>
      refine fun channel stream member => .inr ⟨fun half => ?_, by simp [dials]⟩
      have drops : .drop stream half ∈ made.present.flatMap dropBoth :=
        List.mem_flatMap.mpr ⟨stream, there member, by cases half <;> simp [dropBoth]⟩
      exact .tail _ (List.mem_map_of_mem drops)
  | some listeners =>
    obtain ⟨⟨asked, task, tells⟩, -⟩ := told
    have unlistened : ∀ channel, ∀ listener ∈ (story past).bound.get channel,
        .unlisten listener ∈ unlistenAll listeners.toList := by
      intro channel listener member
      rw [tells] at member
      refine List.mem_map_of_mem ?_
      cases channel <;> simp_all [Channels.get, Channels.toList]
    -- Without a connection there is nothing to wait for, and the call comes back at once.
    cases present : made.present with
    | nil =>
      have given : link.giveUp call (some listeners) made error =
          (unlistenAll listeners.toList ++ (link.fail.settleCall call (.error error)).1,
            (link.fail.settleCall call (.error error)).2) := by
        simp only [giveUp, present]
      rw [given]
      refine fall_sequel _ adds (limited.still adds (by simp)) attempted verdict failing
        ⟨other, unmade⟩ (silent_unlistenAll _)
        (fun channel listener member => .inr (unlistened channel listener member)) ?_
      intro channel stream member
      have absurd := there member
      simp [present] at absurd
    | cons first later =>
      have given : link.giveUp call (some listeners) made error =
          (unlistenAll listeners.toList,
            { link.fail with establishing := .abandoning call error made.present }) := by
        simp only [giveUp, present]
      have quiet := launched_unlistenAll listeners.toList
      have now := story_of_quiet past move quiet
      rw [adds] at now
      rw [given]
      refine ⟨⟨?_, ⟨other, ?_⟩, ?_, ?_⟩, limited.still adds quiet,
        fun other result member => absurd member (silent_unlistenAll _ other result),
        fun _ => .inl⟩
      next => rw [now]; exact verdict
      next => rw [now]; exact unmade
      next =>
        intro channel listener member
        rw [now] at member
        exact did_mem_report (unlistened channel listener member)
      next =>
        intro channel stream member
        rw [now] at member
        exact .inl (there member)

theorem connected_sequel (stream : Stream) (told : Told role past (.making call listeners made))
    (limited : Limited past) (missing : made.get channel = none) :
    Sequel role (some call) (past ++ report (.connected channel stream) []) []
      (link.connected call listeners made channel stream) := by
  let seen := past ++ report (.connected channel stream) []
  have now : story seen =
      { story past with made := (story past).made.modify channel (· ++ [stream]) } :=
    story_of_quiet _ _ rfl
  obtain ⟨-, connects, unfailed, -⟩ := told.making
  have same : (story seen).made = (made.set channel (some stream)).lists := by
    rw [now, ← Channels.lists_set missing, ← connects]
  have limited : Limited seen := by
    refine ⟨?_, ?_, ?_⟩
    next => rw [now]; exact limited.bound
    next => rw [same]; exact Channels.length_lists_le _
    next =>
      rw [now]
      rcases limited.launches with none | ⟨call, frontend, control, data, result, listens, both⟩
      next => exact .inl none
      next => exact .inr ⟨call, frontend, control, data, result, subset_report listens, both⟩
  refine ⟨?_, limited, by simp, fun other same => .inl ?_⟩
  next =>
    simp only [connected]
    split
    next control data first second =>
      refine ⟨?_, ?_⟩
      next => rw [now]; exact unfailed
      next => rw [same, Channels.lists, first, second]; rfl
    next partly =>
      obtain ⟨other, still⟩ := Channels.exists_missing partly
      cases listeners with
      | none =>
        obtain ⟨dials, ⟨asked, tells⟩, -⟩ := told
        refine ⟨dials, ⟨asked, ?_⟩, other, still⟩
        rw [← same, now, tells]
      | some listeners =>
        obtain ⟨⟨asked, task, tells⟩, -⟩ := told
        refine ⟨⟨asked, task, ?_⟩, other, still⟩
        rw [← same, now, tells]
  next =>
    simp only [connected]
    split <;> exact same

end Making

section Storing

variable {channel : Channel} {made : Channels Stream}

theorem store_data (call : Nat) (made : Channels Stream) {asked : Bool}
    (standing : link.state = if asked then .closed else .establishing ⟨true, true⟩) :
    ∃ last : Link,
      link.store call .data made =
        last.settleCall call (if asked then .error .closed else .ok ()) ∧
      last.state = (if asked then .closed else .ready) ∧
      last.writers = ⟨link.writers.control, some made.data⟩ ∧ last.paused = some made := by
  let stored : Link := { link.popLock .data with
    writers := link.writers.set .data (some (made.get .data)), paused := some made }
  cases asked with
  | true =>
    have closed : link.state = .closed := standing
    refine ⟨{ stored with state := .closed }, ?_, rfl, rfl, rfl⟩
    simp only [store, popLock, closed, if_true]
    rfl
  | false =>
    have establishing : link.state = .establishing ⟨true, true⟩ := standing
    refine ⟨{ stored with state := .ready }, ?_, rfl, rfl, rfl⟩
    simp only [store, popLock, establishing]
    rfl

theorem store_sequel (told : Told role past (.storing call channel made)) (limited : Limited past)
    (attempted : (story past).attempted = true)
    (standing : link.state =
      if (story past).asked then .closed else .establishing ⟨true, true⟩)
    (stored : (story past).asked = false → channel = .data →
      link.writers.control = some made.control) :
    Sequel role (some call) (past ++ report .store (link.store call channel made).1)
      (link.store call channel made).1 (link.store call channel made).2 := by
  obtain ⟨unfailed, connects⟩ := told
  cases channel with
  | control =>
    have now : story (past ++ report .store (link.store call .control made).1) = story past :=
      story_of_quiet _ _ rfl
    refine ⟨⟨?_, ?_⟩, limited.still rfl rfl, by simp [store], fun _ => .inl⟩
    all_goals rw [now]
    next => exact unfailed
    next => exact connects
  | data =>
    obtain ⟨last, given, state, writers, paused⟩ := store_data call made standing
    rw [given]
    generalize settled : (if (story past).asked = true then .error .closed else .ok () :
      Except Error Unit) = result
    have now : story (past ++ report .store (last.settleCall call result).1) = story past :=
      story_of_quiet _ _ rfl
    have connected (other : Channel) : (story past).made.get other ≠ [] := by
      rw [connects]
      cases other <;> simp [Channels.get]
    obtain ⟨state', writers', paused'⟩ := settleCall_keeps last call result
    refine sequel_of_settle [] ?_ (limited.still rfl rfl) (by simp) ⟨?_, ?_, ?_, rfl, ?_, ?_⟩
    all_goals rw [now]
    next => exact attempted
    next => rw [Story.verdict, unfailed, ← settled]; cases (story past).asked <;> rfl
    next =>
      rw [← settled]
      cases asked : (story past).asked <;> simp [connected]
    next =>
      rw [state', state, ← settled]
      cases asked : (story past).asked <;> simp [Story.leaves, asked]
    next =>
      rintro rfl
      have unasked : (story past).asked = false := by
        cases asked : (story past).asked with
        | false => rfl
        | true => simp [asked] at settled
      refine ⟨made, connects, ?_, paused'.trans paused⟩
      rw [writers', writers, stored unasked rfl]
    next =>
      rintro ⟨error, rfl⟩ asked
      simp [asked] at settled

end Storing

section Abandoning

def disposal (result : Except Fault Unit) (stream : Stream) : List Effect :=
  (match result with
    | .ok () => [.shut stream]
    | .error _ => []) ++ dropBoth stream

theorem dropped_of_disposal {stream : Stream} {result : Except Fault Unit} :
    Dropped role (report (.abandon result) (disposal result stream)) stream := by
  refine ⟨fun half => ?_, fun _ => ?_⟩
  next => cases result <;> cases half <;> simp [report, disposal, dropBoth]
  next =>
    cases result with
    | ok => exact .inl (by simp [report, disposal])
    | error fault => exact .inr ⟨[], fault, [], [], by simp [disposal]⟩

theorem disposal_quiet (result : Except Fault Unit) (stream : Stream) :
    (disposal result stream).flatMap Effect.launched = [] ∧
      ∀ call result', .established call result' ∉ disposal result stream := by
  cases result <;> simp [disposal, dropBoth, Effect.launched]

theorem abandon_sequel {left : List Stream} (result : Except Fault Unit)
    (told : Told role past (.abandoning call error left)) (limited : Limited past)
    (attempted : (story past).attempted = true)
    (standing : link.state = if (story past).asked then .closed else .failed) :
    Sequel role (some call)
      (past ++ report (.abandon result) (link.abandon call error result left).1)
      (link.abandon call error result left).1 (link.abandon call error result left).2 := by
  obtain ⟨verdict, unmade, unlistened, dropped⟩ := told
  have before (disposal : List Effect) : ∀ channel, ∀ listener ∈ (story past).bound.get channel,
      .did (.unlisten listener) ∈ past ∨ .unlisten listener ∈ disposal :=
    fun channel listener member => .inl (unlistened channel listener member)
  cases left with
  | nil =>
    refine fall_sequel [] rfl (limited.still rfl (by simp)) attempted verdict standing unmade
      (by simp) (before []) fun channel stream member => .inl ?_
    exact (dropped channel stream member).resolve_left List.not_mem_nil
  | cons stream left =>
    obtain ⟨quiet, silent⟩ := disposal_quiet result stream
    cases left with
    | nil =>
      have given : link.abandon call error result [stream] =
          (disposal result stream ++ (link.settleCall call (.error error)).1,
            (link.settleCall call (.error error)).2) := by
        cases result <;> rfl
      rw [given]
      refine fall_sequel _ rfl (limited.still rfl (by simp [quiet])) attempted verdict standing
        unmade silent (before _) fun channel other member => ?_
      rcases dropped channel other member with there | gone
      next =>
        obtain rfl := List.mem_singleton.mp there
        exact .inr dropped_of_disposal
      next => exact .inl gone
    | cons next left =>
      have given : link.abandon call error result (stream :: next :: left) =
          (disposal result stream,
            { link with establishing := .abandoning call error (next :: left) }) := by
        cases result <;> rfl
      have now : story (past ++ report (.abandon result) (disposal result stream)) = story past :=
        story_of_quiet _ _ quiet
      rw [given]
      refine ⟨⟨?_, ?_, ?_, ?_⟩, limited.still rfl quiet,
        fun other result' member => absurd member (silent other result'), fun _ => .inl⟩
      next => rw [now]; exact verdict
      next => rw [now]; exact unmade
      next =>
        intro channel listener member
        rw [now] at member
        exact subset_report (unlistened channel listener member)
      next =>
        intro channel other member
        rw [now] at member
        rcases dropped channel other member with there | gone
        next =>
          rcases List.mem_cons.mp there with rfl | later
          next => exact .inr (dropped_of_disposal.prepend past)
          next => exact .inl later
        next => exact .inr (gone.append _)

end Abandoning

end Outcome

end Link

end TpmRelay
