import TpmRelay.Proofs.Link.Attempt
import TpmRelay.Proofs.Link.Queueing

set_option autoImplicit false

namespace TpmRelay.Link

/-- The call can come back with this result, and nobody need close the link for that. -/
def ComesBack (link : Link) (call : Nat) (result : Except Error Unit) : Prop :=
  ∃ later last, link.GoesOn later last ∧ .did (.established call result) ∈ later

section ComingBack

variable {link next : Link} {move : Move} {call : Nat} {error : Error} {result : Except Error Unit}

theorem ComesBack.now {progress : Progress} (stepped : link.step move = some progress)
    (unasked : move.asks = false) (back : .established call result ∈ progress.1) :
    link.ComesBack call result :=
  ⟨_, progress.2, .cons stepped unasked (.refl _), by simp [report, back]⟩

theorem ComesBack.later {later : List Happening} (goesOn : link.GoesOn later next)
    (back : next.ComesBack call result) : link.ComesBack call result := by
  obtain ⟨rest, last, further, member⟩ := back
  exact ⟨_, last, goesOn.trans further, List.mem_append_right _ member⟩

theorem ComesBack.step {progress : Progress} (stepped : link.step move = some progress)
    (unasked : move.asks = false) (back : progress.2.ComesBack call result) :
    link.ComesBack call result :=
  .later (.cons stepped unasked (.refl progress.2)) back

theorem comesBack_abandoning {left : List Stream}
    (abandoning : link.establishing = .abandoning call error left) :
    link.ComesBack call (.error error) := by
  -- One shutdown after another.
  induction left generalizing link with
  | nil =>
    have stepped : link.step (.abandon (.ok ())) = some (link.abandon call error (.ok ()) []) := by
      simp only [Link.step, stepEstablishing, abandoning]
    exact .now stepped rfl (.head _)
  | cons stream left ih =>
    have stepped : link.step (.abandon (.ok ())) =
        some (link.abandon call error (.ok ()) (stream :: left)) := by
      simp only [Link.step, stepEstablishing, abandoning]
    cases left with
    | nil => exact .now stepped rfl (by simp [abandon, settleCall])
    | cons next left => exact .step stepped rfl (ih rfl)

theorem comesBack_making {listeners : Option (Channels Listener)}
    {made : Channels (Option Stream)} (making : link.establishing = .making call listeners made)
    (closing : link.closing = true) : link.ComesBack call (.error .closed) := by
  have stepped : link.step .notice = some (link.giveUp call listeners made .closed) := by
    simp only [Link.step, stepEstablishing, making, closing, if_true]
  cases listeners with
  | none => exact .now stepped rfl (by simp [giveUp, settleCall])
  | some listeners =>
    cases present : made.present with
    | nil => exact .now stepped rfl (by simp [giveUp, present, settleCall])
    | cons first later =>
      have abandoning : (link.giveUp call (some listeners) made .closed).2.establishing =
          .abandoning call .closed (first :: later) := by
        simp only [giveUp, present]
      exact .step stepped rfl (comesBack_abandoning abandoning)

theorem HasTurn.stores {channel : Channel} {made : Channels Stream}
    (hasTurn : link.HasTurn channel) (storing : link.establishing = .storing call channel made) :
    ∃ later last, link.GoesOn later last ∧ last.Fit ∧ last.state = link.state ∧
      last.step .store = some (last.store call channel made) := by
  obtain ⟨later, last, goesOn, fit, establishing, state, first⟩ := hasTurn
  refine ⟨later, last, goesOn, fit, state, ?_⟩
  simp only [Link.step, stepEstablishing, establishing, storing, first, if_true]

theorem comesBack_storing {asked : Bool} {channel : Channel} {made : Channels Stream}
    (fit : link.Fit) (storing : link.establishing = .storing call channel made)
    (standing : link.state = if asked then .closed else .establishing ⟨true, true⟩) :
    link.ComesBack call (if asked then .error .closed else .ok ()) := by
  have last {link : Link} (fit : link.Fit) (storing : link.establishing = .storing call .data made)
      (standing : link.state = if asked then .closed else .establishing ⟨true, true⟩) :
      link.ComesBack call (if asked then .error .closed else .ok ()) := by
    obtain ⟨later, last, goesOn, -, state, stepped⟩ := (fit.hasTurn storing).stores storing
    obtain ⟨ended, stored, -⟩ := store_data call made (state.trans standing)
    exact .later goesOn (.now stepped rfl (by simp [stored, settleCall]))
  cases channel with
  | data => exact last fit storing standing
  | control =>
    obtain ⟨later, middle, goesOn, fit, state, stepped⟩ := (fit.hasTurn storing).stores storing
    exact .later goesOn (.step stepped rfl (last (fit.step stepped) rfl (state.trans standing)))

end ComingBack

/-- Some steps are still to come, and each of them can come out either way. -/
inductive Awaits (past : List Happening) (link : Link) : Prop where
  | listeners (missing : ∃ channel, (story past).bound.get channel = [])
      (either : ∀ channel, (story past).bound.get channel = [] →
        (∀ listener launching, ∃ progress,
          link.step (.bound channel listener launching) = some progress) ∧
        ∀ fault, ∃ progress, link.step (.unbound channel fault) = some progress)
  | streams (missing : ∃ channel, (story past).made.get channel = [])
      (either : ∀ channel, (story past).made.get channel = [] →
        (∀ stream, ∃ progress, link.step (.connected channel stream) = some progress) ∧
        ∀ fault, ∃ progress, link.step (.refused channel fault) = some progress)

theorem Tried.progress {role : Role} {past : List Happening} {link : Link} {call : Nat}
    (tried : Tried role past link) (fit : link.Fit) (owner : link.establishing.owner? = some call) :
    Awaits past link ∨ link.ComesBack call (story past).verdict := by
  have told := tried.told
  cases stage : link.establishing with
  | absent => simp [stage, Establishing.owner?] at owner
  | binding other frontend bound =>
    obtain ⟨⟨asked, tells⟩, ⟨channel, missing⟩, -⟩ := stage ▸ told
    have still (channel : Channel) :
        (story past).bound.get channel = [] ↔ bound.get channel = none := by
      rw [tells, Channels.get_lists_eq_nil]
    refine .inl (.listeners ⟨channel, (still channel).mpr missing⟩ fun channel missing => ?_)
    have missing := (still channel).mp missing
    refine ⟨fun listener launching => ?_, fun fault => ?_⟩
    all_goals
      simp only [Link.step, stepEstablishing, stage, missing, Option.isNone_none, if_true]
      exact ⟨_, rfl⟩
  | making other listeners made =>
    obtain rfl : other = call := by simpa [stage, Establishing.owner?] using owner
    obtain ⟨-, connects, unfailed, channel, missing⟩ := (stage ▸ told : Told role past _).making
    cases closing : link.closing with
    | true =>
      have verdict : (story past).verdict = .error .closed := by
        rw [Story.verdict, unfailed, tried.placed.asked, closing]
      exact .inr (verdict ▸ comesBack_making stage closing)
    | false =>
      have still (channel : Channel) :
          (story past).made.get channel = [] ↔ made.get channel = none := by
        rw [connects, Channels.get_lists_eq_nil]
      refine .inl (.streams ⟨channel, (still channel).mpr missing⟩ fun channel missing => ?_)
      have missing := (still channel).mp missing
      refine ⟨fun stream => ?_, fun fault => ?_⟩
      all_goals
        simp only [Link.step, stepEstablishing, stage, missing, closing, Option.isNone_none,
          Bool.not_false, and_self, if_true]
        exact ⟨_, rfl⟩
  | storing other channel made =>
    obtain rfl : other = call := by simpa [stage, Establishing.owner?] using owner
    obtain ⟨unfailed, -⟩ := stage ▸ told
    obtain ⟨-, standing⟩ := tried.standing stage (by simp) (·.1)
    have verdict :
        (story past).verdict = if (story past).asked then .error .closed else .ok () := by
      rw [Story.verdict, unfailed]
      cases (story past).asked <;> rfl
    exact .inr (verdict ▸ comesBack_storing fit stage standing)
  | abandoning other error left =>
    obtain rfl : other = call := by simpa [stage, Establishing.owner?] using owner
    obtain ⟨verdict, -⟩ := stage ▸ told
    exact .inr (verdict ▸ comesBack_abandoning stage)

theorem Tried.head_has_turn {role : Role} {past : List Happening} {link : Link} {call : Nat}
    {frontend : String} (tried : Tried role past link)
    (first : link.gate.head? = some (.listen call frontend)) :
    link.establishing.owner? = some call ∨ ∃ progress, link.step .turn = some progress := by
  have plays := tried.regular.plays
  cases role with
  | dialing => exact absurd (List.mem_of_mem_head? first) (plays.gate call frontend)
  | waiting =>
    cases owner : link.establishing.owner? with
    | some other =>
      obtain ⟨place, head⟩ := plays.first other owner
      obtain ⟨rfl, rfl⟩ : call = other ∧ frontend = place := by simpa [first] using head
      exact .inl rfl
    | none =>
      obtain ⟨rest, queue⟩ := List.head?_eq_some_iff.mp first
      refine .inr ⟨link.turn call frontend, ?_⟩
      simp only [Link.step, stepEstablishing, queue, Establishing.absent_of_no_owner owner]

/-- Only the first call that has its turn can establish a link. It comes back with the first failure
of one of its steps, with word that the link was closed, or with success if both channels were
connected before any close; and the link is left accordingly. -/
theorem establishing_follows_steps {role : Role} {moves : List Move} {past : List Happening}
    {link : Link} (run : (fresh role).journal moves = some (past, link)) :
    Limited past ∧
    (∀ move effects next, link.step move = some (effects, next) →
      Conduct role past link move effects next) ∧
    (∀ call, link.establishing.owner? = some call →
      Awaits past link ∨ link.ComesBack call (story past).verdict) ∧
    ∀ call frontend, link.gate.head? = some (.listen call frontend) →
      link.establishing.owner? = some call ∨ ∃ progress, link.step .turn = some progress := by
  obtain ⟨tried, fit⟩ := journal_induction_step
    (motive := fun past link => Tried role past link ∧ link.Fit)
    (fun kept stepped => ⟨kept.1.step stepped, kept.2.step stepped⟩)
    ⟨tried_fresh role, fit_fresh role⟩ run
  rw [List.nil_append] at tried
  exact ⟨tried.limited, fun _ _ _ stepped => tried.conduct stepped,
    fun _ owner => tried.progress fit owner, fun _ _ first => tried.head_has_turn first⟩

def halfAdmission : List Move :=
  [.listen 0 "port=2321", .turn, .bound .data ⟨0, .unix "data"⟩ .started,
    .bound .control ⟨1, .unix "control"⟩ .started, .connected .control 0,
    .refused .data ⟨.connectionAborted, none⟩]

theorem half_admission_is_given_up :
    (∃ past link effects next, (fresh .waiting).journal halfAdmission = some (past, link) ∧
      link.ComesBack 0 (.error (.transport ⟨.connectionAborted, none⟩)) ∧
      link.step (.abandon (.ok ())) = some (effects, next) ∧
      .established 0 (.error (.transport ⟨.connectionAborted, none⟩)) ∈ effects ∧
      next.state = .failed ∧ Unlistened (past ++ report (.abandon (.ok ())) effects) ∧
      Dropped .waiting (past ++ report (.abandon (.ok ())) effects) 0) ∧
    ∃ past link effects next, (fresh .dialing).journal (opening.take 6) = some (past, link) ∧
      link.step .store = some (effects, next) ∧ .established 0 (.ok ()) ∈ effects ∧
      next.state = .ready := by
  constructor
  next =>
    obtain ⟨past, link, effects, next, run, stage, verdict, stepped, given, asked, connected⟩ :
        ∃ past link effects next, (fresh .waiting).journal halfAdmission = some (past, link) ∧
          link.establishing =
            .abandoning 0 (.transport ⟨.connectionAborted, none⟩) [0] ∧
          (story past).verdict = .error (.transport ⟨.connectionAborted, none⟩) ∧
          link.step (.abandon (.ok ())) = some (effects, next) ∧
          .established 0 (.error (.transport ⟨.connectionAborted, none⟩)) ∈ effects ∧
          (story (past ++ report (.abandon (.ok ())) effects)).asked = false ∧
          0 ∈ (story (past ++ report (.abandon (.ok ())) effects)).made.get .control :=
      ⟨_, _, _, _, rfl, rfl, rfl, rfl, by simp [dropBoth], rfl, .head _⟩
    obtain ⟨-, conducts, returns, -⟩ := establishing_follows_steps run
    have back := (returns 0 (by rw [stage]; rfl)).resolve_left fun awaits => by
      cases awaits with
      | listeners missing either =>
        obtain ⟨channel, missing⟩ := missing
        obtain ⟨progress, stepped⟩ := (either channel missing).2 ⟨.other, none⟩
        simp [step, stepEstablishing, stage] at stepped
      | streams missing either =>
        obtain ⟨channel, missing⟩ := missing
        obtain ⟨progress, stepped⟩ := (either channel missing).2 ⟨.other, none⟩
        simp [step, stepEstablishing, stage] at stepped
    obtain ⟨-, outcome⟩ := (conducts _ _ _ stepped).returns 0 _ given (.inl rfl)
    obtain ⟨unlistened, dropped⟩ := outcome.released ⟨_, rfl⟩ asked
    refine ⟨past, link, effects, next, run, verdict ▸ back, stepped, given, ?_, unlistened,
      dropped .control 0 connected⟩
    simp [outcome.state, Story.leaves, asked]
  next =>
    obtain ⟨past, link, effects, next, run, stepped, given⟩ : ∃ past link effects next,
        (fresh .dialing).journal (opening.take 6) = some (past, link) ∧
          link.step .store = some (effects, next) ∧ .established 0 (.ok ()) ∈ effects :=
      ⟨_, _, _, _, rfl, rfl, .head _⟩
    obtain ⟨-, conducts, -⟩ := establishing_follows_steps run
    obtain ⟨-, outcome⟩ := (conducts _ _ _ stepped).returns 0 _ given (.inl rfl)
    exact ⟨past, link, effects, next, run, stepped, given, outcome.state⟩

end TpmRelay.Link
