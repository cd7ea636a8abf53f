import TpmRelay.Proofs.Link.Closing

set_option autoImplicit false

namespace TpmRelay.Link

def Move.connects : Move → Bool
  | connected .. => true
  | _ => false

def Connected (moves : List Move) (channel : Channel) (stream : Stream) : Prop :=
  .connected channel stream ∈ moves

def Establishing.Wired (moves : List Move) : Establishing → Prop
  | .absent | .abandoning .. => True
  | .binding .. => ∀ channel stream, ¬ Connected moves channel stream
  | .making _ _ made =>
    ∀ channel stream, Connected moves channel stream ↔ made.get channel = some stream
  | .storing _ _ made => ∀ channel, Connected moves channel (made.get channel)

-- Each connection has a number of its own.
def Distinct (moves : List Move) : Prop :=
  ∀ stream, Connected moves .control stream → ¬ Connected moves .data stream

-- What a link does on a channel, it does on the connection that came in on this channel.
structure Wired (moves : List Move) (link : Link) : Prop where
  idle : link.state = .idle → ∀ channel stream, ¬ Connected moves channel stream
  once : ∀ channel stream other, Connected moves channel stream →
    Connected moves channel other → stream = other
  stage : link.establishing.Wired moves
  paused : ∀ made, link.paused = some made → ∀ channel, Connected moves channel (made.get channel)
  reads : ∀ channel stream, link.readers.get channel = .running stream →
    Connected moves channel stream
  writes : ∀ channel stream, link.writers.get channel = some stream →
    Connected moves channel stream
  shuts : ∀ channel stream, link.closer = .shutting channel stream →
    Connected moves channel stream

variable {link link' : Link} {moves : List Move} {move : Move} {effects : List Effect}

theorem wired_fresh (role : Role) : Wired [] (fresh role) where
  idle _ _ _ := List.not_mem_nil
  once _ _ _ connected := absurd connected List.not_mem_nil
  stage := trivial
  paused := nofun
  reads channel _ running := by cases channel <;> cases running
  writes channel _ stored := by cases channel <;> cases stored
  shuts := nofun

theorem connected_append (more : List Move) (channel : Channel) (stream : Stream) :
    Connected (moves ++ more) channel stream ↔
      Connected moves channel stream ∨ Connected more channel stream :=
  List.mem_append

theorem Distinct.of_append {more : List Move} (distinct : Distinct (moves ++ more)) :
    Distinct moves :=
  fun stream control data =>
    distinct stream (List.mem_append_left _ control) (List.mem_append_left _ data)

theorem Wired.same_iff (wired : Wired moves link) (distinct : Distinct moves)
    {channel other : Channel} {stream last : Stream} (first : Connected moves channel stream)
    (second : Connected moves other last) : other = channel ↔ last = stream := by
  constructor
  next =>
    rintro rfl
    exact wired.once other last stream second first
  next =>
    rintro rfl
    cases channel <;> cases other
    next => rfl
    next => exact absurd second (distinct last first)
    next => exact absurd first (distinct last second)
    next => rfl

theorem Wired.later (wired : Wired moves link) (other : move.connects = false) :
    Wired (moves ++ [move]) link := by
  have same : Connected (moves ++ [move]) = Connected moves := by
    funext channel stream
    have away : .connected channel stream ≠ move := by
      rintro rfl
      cases other
    simp [Connected, away]
  obtain ⟨idle, once, stage, paused, reads, writes, shuts⟩ := wired
  rw [← same] at idle once paused reads writes shuts
  refine ⟨idle, once, ?_, paused, reads, writes, shuts⟩
  cases at' : link.establishing with
  | absent | abandoning => trivial
  | binding | making | storing =>
    rw [at'] at stage
    simpa only [Establishing.Wired, same] using stage

theorem Wired.released (wired : Wired moves link) : Wired moves link.released :=
  { wired with
    paused := nofun
    reads := fun channel stream running => absurd running (Muted.released link rfl channel stream)
    shuts := nofun }

theorem Wired.finish {channel : Channel} (wired : Wired moves link) :
    ∀ other stream, (link.readers.set channel .finished).get other = .running stream →
      Connected moves other stream := by
  intro other stream running
  rw [Channels.get_set] at running
  split at running
  next => cases running
  next => exact wired.reads other stream running

section Making

variable {call : Nat} {listeners : Option (Channels Listener)} {made : Channels (Option Stream)}
  {channel : Channel} {stream : Stream}

theorem Wired.unmade (wired : Wired moves link)
    (making : link.establishing = .making call listeners made) (missing : made.get channel = none)
    (stream : Stream) : ¬ Connected moves channel stream := by
  have stage := wired.stage
  rw [making] at stage
  rw [stage channel stream, missing]
  exact nofun

theorem Wired.connects (wired : Wired moves link)
    (making : link.establishing = .making call listeners made) (missing : made.get channel = none)
    (other : Channel) (last : Stream) :
    Connected (moves ++ [.connected channel stream]) other last ↔
      (made.set channel (some stream)).get other = some last := by
  have stage := wired.stage
  rw [making] at stage
  have unmade := wired.unmade making missing last
  have now : Connected [.connected channel stream] other last ↔
      other = channel ∧ last = stream := by
    simp [Connected]
  rw [connected_append, Channels.get_set, now]
  by_cases same : other = channel
  next =>
    subst same
    simp [unmade, eq_comm]
  next => simp only [same, stage other last, false_and, or_false, if_false]

theorem Wired.connect {stage : Establishing} (wired : Wired moves link) (sound : link.Sound)
    (held : Option (Channels Listener))
    (making : link.establishing = .making call listeners made) (missing : made.get channel = none)
    (next : stage.Wired (moves ++ [.connected channel stream])) :
    Wired (moves ++ [.connected channel stream]) { link with
      state := link.state.markMade channel, listeners := held, establishing := stage } := by
  have before {other : Channel} {last : Stream} (connected : Connected moves other last) :
      Connected (moves ++ [.connected channel stream]) other last :=
    List.mem_append_left _ connected
  refine ⟨fun idle => ?_, fun other first last first' last' => ?_, next,
    fun made paused channel => before (wired.paused made paused channel),
    fun channel stream running => before (wired.reads channel stream running),
    fun channel stream stored => before (wired.writes channel stream stored),
    fun channel stream shutting => before (wired.shuts channel stream shutting)⟩
  next => exact absurd idle (State.markMade_ne_idle (sound.roomy making).1 channel)
  next =>
    rw [wired.connects making missing] at first' last'
    exact Option.some.inj (first'.symm.trans last')

end Making

theorem Wired.store {channel : Channel} {stream : Stream} (wired : Wired moves link)
    (connected : Connected moves channel stream) :
    ∀ other last, (link.writers.set channel (some stream)).get other = some last →
      Connected moves other last := by
  intro other last stored
  rw [Channels.get_set] at stored
  split at stored
  next same =>
    obtain rfl := Option.some.inj stored
    exact same ▸ connected
  next => exact wired.writes other last stored

theorem Wired.change (wired : Wired moves link) (sound : link.Sound)
    (change : Change link move effects link') : Wired (moves ++ [move]) link' := by
  have stage {stage : Establishing} (now : link.establishing = stage) : stage.Wired moves :=
    now ▸ wired.stage
  cases change with
  | connectsOne making _ missing =>
    exact wired.connect sound link.listeners making missing fun _ _ =>
      wired.connects making missing ..
  | @connectsBoth _ listeners _ _ _ _ _ making _ missing both =>
    refine wired.connect sound listeners making missing fun other => ?_
    rw [wired.connects making missing, both]
    cases other <;> rfl
  | waits waits =>
    exact Wired.later { wired with } (by cases move <;> simp_all [Move.waits, Move.connects])
  | late | takesEvents | resumesNothing | reads | closesAgain =>
    exact Wired.later { wired with } rfl
  | lateTurn => exact Wired.later { wired with stage := trivial } rfl
  | connects _ idle =>
    have unmade := wired.idle idle
    refine Wired.later { wired with idle := by simp, stage := fun channel stream => ?_ } rfl
    cases channel <;> simp [unmade, Channels.get]
  | turns _ _ idle => exact Wired.later { wired with idle := by simp, stage := wired.idle idle } rfl
  | binds binding =>
    have unmade := stage binding
    exact Wired.later { wired with stage := unmade } rfl
  | launches binding =>
    have unmade := stage binding
    refine Wired.later { wired with stage := fun channel stream => ?_ } rfl
    cases channel <;> simp [unmade _ stream, Channels.get]
  | abandons settles _ making =>
    have busy := State.fail_ne_idle (sound.roomy making).1
    exact Wired.later { wired with idle := fun idle => absurd idle busy, stage := trivial }
      (by cases move <;> simp_all [Move.settles, Move.connects])
  | abandonsOne => exact Wired.later { wired with stage := trivial } rfl
  | settles busy settles _ _ failed =>
    have busy := (sound.busy busy).1
    refine Wired.later { wired with idle := fun idle => ?_, stage := trivial }
      (by cases move <;> simp_all [Move.settles, Move.connects])
    rcases failed with rfl | rfl
    next => exact absurd idle (State.fail_ne_idle busy)
    next => exact absurd idle busy
  | storesControl storing =>
    have made := stage storing
    exact Wired.later { wired with stage := made, writes := wired.store (made .control) } rfl
  | storesData storing ready =>
    have busy := (sound.busy (by simp [storing])).1
    refine Wired.later { wired with
      idle := fun idle => ?_
      stage := trivial
      paused := fun made same channel => ?_
      writes := wired.store (stage storing .data) } rfl
    next =>
      rcases ready with rfl | ⟨-, rfl⟩
      next => exact absurd idle busy
      next => cases idle
    next =>
      obtain rfl := Option.some.inj same
      exact stage storing channel
  | resumes _ paused =>
    refine Wired.later { wired with
      paused := by simp
      reads := fun channel stream running => ?_ } rfl
    have connected := wired.paused _ paused channel
    cases channel <;> exact Reader.running.inj running ▸ connected
  | readEnds => exact Wired.later { wired with reads := wired.finish } rfl
  | lastReadEnds => exact Wired.later { wired with idle := by simp, reads := wired.finish } rfl
  | closesDialing =>
    have closed : Wired moves { link with closing := true, state := .closed } :=
      { wired with idle := by simp }
    exact Wired.later closed.released rfl
  | closesWaiting => exact Wired.later { wired with idle := by simp, shuts := by simp } rfl
  | @closesAlone _ gate =>
    have queued : Wired moves { link with gate } := { wired with }
    exact Wired.later queued.released rfl
  | closeLocks locking stored =>
    refine Wired.later { wired with
      writes := fun other last stored => ?_
      shuts := fun other last shutting => ?_ } rfl
    next =>
      rw [Channels.get_set] at stored
      split at stored
      next => cases stored
      next => exact wired.writes other last stored
    next =>
      obtain ⟨rfl, rfl⟩ := Closer.shutting.inj shutting
      exact wired.writes _ _ stored
  | passesControl passes | terminates passes | returns passes =>
    exact Wired.later { wired with shuts := by simp } (by cases passes <;> rfl)
  | stops => exact Wired.later { wired with shuts := by simp } rfl

end TpmRelay.Link
