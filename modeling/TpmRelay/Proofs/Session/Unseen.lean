import TpmRelay.Session.Step

set_option autoImplicit false

namespace TpmRelay.Session

structure Unseen (change : Session → Session) : Prop where
  stream (session : Session) (side : Side) :
    ((change session).half side).stream = (session.half side).stream
  call (session : Session) (side : Side) :
    ((change session).half side).call = (session.half side).call
  phase (session : Session) (phase : Phase) :
    { change session with phase } = change { session with phase }
  withHalf (session : Session) (side : Side) (f : Half → Half)
    (own : ∀ half inbox, f { half with inbox } = { f half with inbox }) :
    (change session).withHalf side f = change (session.withHalf side f)

namespace Unseen

variable {change : Session → Session} (unseen : Unseen change) (session : Session) (side : Side)

include unseen

theorem conclude (outcome : Outcome) :
    (change session).conclude outcome = Prod.map id change (session.conclude outcome) := by
  let drop (half : Half) : Half := { half with call := none }
  have dropped : ((change session).withHalf .simulator drop).withHalf .client drop =
      change ((session.withHalf .simulator drop).withHalf .client drop) := by
    rw [unseen.withHalf _ _ _ fun _ _ => rfl, unseen.withHalf _ _ _ fun _ _ => rfl]
  have same := unseen.phase ((session.withHalf .simulator drop).withHalf .client drop)
    (.releasing .simulator outcome)
  rw [← dropped] at same
  exact Prod.ext rfl same

theorem dispatch :
    (change session).dispatch side = (session.dispatch side).map (Prod.map id change) := by
  unfold Session.dispatch
  rw [unseen.call, unseen.stream]
  split
  next => rfl
  next =>
    split
    next => rfl
    next => rfl
    next packet stream _ =>
      rw [unseen.withHalf session side (fun half => { half with stream, call := some packet })
        fun _ _ => rfl]
      rfl

theorem turn : (change session).turn = Prod.map id change session.turn := by
  unfold Session.turn
  rw [unseen.dispatch]
  cases session.dispatch .simulator with
  | error failure => exact unseen.conclude session _
  | ok progress =>
    obtain ⟨effects, next⟩ := progress
    simp only [Except.map, Prod.map]
    rw [unseen.dispatch]
    cases next.dispatch .client with
    | error failure => simp [Except.map, fail, unseen.conclude]
    | ok progress => simp [Except.map, unseen.phase]

theorem drain (closed : Side) (sides : List Side) :
    (change session).drain closed sides = Prod.map id change (session.drain closed sides) := by
  induction sides generalizing session with
  | nil => exact unseen.conclude session _
  | cons side later ih =>
    unfold Session.drain
    rw [unseen.dispatch]
    cases session.dispatch side with
    | error failure => exact unseen.conclude session _
    | ok progress =>
      obtain ⟨effects, next⟩ := progress
      simp only [Except.map, Prod.map, unseen.call, ih]
      split
      next => simp [unseen.phase]
      next => simp [discarded, unseen.stream]

theorem complete (result : Except Fault Unit) {next : Session → Progress}
    (same : ∀ later : Session, next (change later) = Prod.map id change (next later)) :
    (change session).complete side result next =
      Prod.map id change (session.complete side result next) := by
  have dropped := unseen.withHalf session side (fun half => { half with call := none })
    fun _ _ => rfl
  unfold Session.complete
  rw [dropped]
  cases result with
  | ok => exact same _
  | error fault => exact unseen.conclude _ _

end Unseen

end TpmRelay.Session
