import TpmRelay.Proofs.Session.Draining
import TpmRelay.Proofs.Session.Handling

set_option autoImplicit false

namespace TpmRelay

@[simp] theorem Side.opposite_inj {side other : Side} :
    side.opposite = other.opposite ↔ side = other := by
  cases side <;> cases other <;> decide

namespace Session

/-- Follows the packets that calls still have to send. Each call sends its packet once, to the other
side, and then returns; every write succeeds. -/
def carry (loads : Sides (Option Packet)) : Happening → Option (Sides (Option Packet))
  | .did (.dispatch side packet) => some (loads.set side (some packet))
  | .sent caller target packet =>
    if target = caller.opposite ∧ loads.get caller = some packet then some (loads.set caller none)
    else none
  | .returned side (.ok ()) => if loads.get side = none then some loads else none
  | .forwarded (.ok ()) | .took .. | .shutdown | .did _ => some loads
  | .returned _ (.error _) | .forwarded (.error _) => none

def PassThrough (happenings : List Happening) : Prop :=
  (happenings.foldlM carry ⟨none, none⟩).isSome

section

variable {side : Side} {session session' : Session} {happenings : List Happening}
  {loads loads' : Sides (Option Packet)}

def Carried (loads : Sides (Option Packet)) (session : Session) (side : Side) : Prop :=
  loads.get side = none ∨ (session.half side).call.isSome ∨
    session.phase.verdict?.isSome ∧ ¬ session.phase.Drained side

theorem Change.writes_control (change : Change session happenings session') :
    written side.opposite .control happenings = taken side .control happenings := by
  cases change with
  | concluded ending => cases ending <;> simp [written, taken]
  | closed _ _ closing => rcases closing with rfl | rfl <;> simp [written, taken]
  | _ => simp [written, taken, eq_comm]

theorem carry_sent {caller target : Side} {packet : Packet} {effect : Effect}
    (write : effect = .write target .data packet.serialize)
    (follows : [.sent caller target packet, .did effect].foldlM carry loads = some loads') :
    target = caller.opposite ∧ loads.get caller = some packet ∧ loads.set caller none = loads' := by
  subst write
  simpa [carry, and_assoc] using follows

theorem carry_returned {origin : Side}
    (follows : [.returned origin (.ok ())].foldlM carry loads = some loads') :
    loads.get origin = none ∧ loads = loads' := by
  simpa [carry] using follows

theorem Carried.idle {other : Side} (carried : Carried loads session side)
    (polled : session.polls other = true) (idle : (session.half side).call = none) :
    loads.get side = none := by
  rcases carried with empty | busy | ⟨verdict, _⟩
  next => exact empty
  next => simp [idle] at busy
  next => simp [verdict?_of_polls polled] at verdict

theorem Carried.later (carried : Carried loads session side)
    (kept : (session'.half side).call = (session.half side).call)
    (verdict : session'.phase.verdict?.isSome)
    (drained : session'.phase.Drained side → session.phase.Drained side) :
    Carried loads session' side := by
  rcases carried with empty | busy | ⟨_, undrained⟩
  next => exact .inl empty
  next => exact .inr (.inl (kept ▸ busy))
  next => exact .inr (.inr ⟨verdict, fun now => undrained (drained now)⟩)

theorem Change.passes_on (change : Change session happenings session')
    (carried : Carried loads session side) (follows : happenings.foldlM carry loads = some loads') :
    written side.opposite .data happenings ++ (loads'.get side).toList.map Packet.serialize =
      (loads.get side).toList.map Packet.serialize ++
        (handed side happenings).map Packet.serialize := by
  -- What a call has yet to send was handed out; sending moves it over to what was written.
  cases change with
  | concluded ending =>
    cases ending with
    | faulty | unforwarded => simp [carry] at follows
    | _ =>
      obtain rfl : loads = loads' := by simpa [carry] using follows
      simp [written, handed]
  | @sent caller target packet polled busy =>
    obtain ⟨rfl, load, rfl⟩ := carry_sent rfl follows
    by_cases same : side = caller
    next => simp [written, handed, same, load]
    next => simp [written, handed, same, Ne.symm same]
  | @dispatched origin packet stream polled idle =>
    obtain rfl : loads.set origin (some packet) = loads' := by simpa [carry] using follows
    by_cases same : side = origin
    next =>
      subst same
      simp [written, handed, carried.idle polled idle]
    next => simp [written, handed, same, Ne.symm same]
  | @returned origin polled busy =>
    obtain ⟨_, rfl⟩ := carry_returned follows
    simp [written, handed]
  | _ =>
    obtain rfl : loads = loads' := by simpa [carry] using follows
    simp [written, handed]

theorem Change.carries (change : Change session happenings session')
    (carried : Carried loads session side)
    (emptied : session.phase.Drained side → (session.half side).Emptied)
    (follows : happenings.foldlM carry loads = some loads') : Carried loads' session' side := by
  -- A session drops calls only at an ending; the one that leaves both sides emptied drops none.
  cases change with
  | @sent caller target packet polled busy =>
    obtain ⟨rfl, load, rfl⟩ := carry_sent rfl follows
    by_cases same : side = caller
    next => exact .inl (by simp [same])
    next => simpa [Carried, same] using carried
  | @dispatched origin packet stream polled idle =>
    obtain rfl : loads.set origin (some packet) = loads' := by simpa [carry] using follows
    by_cases same : side = origin
    next => exact .inr (.inl (by simp [half_withHalf, same]))
    next => simpa [Carried, half_withHalf, same] using carried
  | @returned origin polled busy =>
    obtain ⟨free, rfl⟩ := carry_returned follows
    by_cases same : side = origin
    next => exact .inl (same ▸ free)
    next => simpa [Carried, half_withHalf, same] using carried
  | concluded ending =>
    cases ending with
    | faulty | unforwarded => simp [carry] at follows
    | drained draining idle =>
      obtain rfl : loads = loads' := by simpa [carry] using follows
      have polled : session.polls .client = true := by simp [polls, draining]
      left
      cases side with
      | client => exact carried.idle polled idle
      | simulator => exact carried.idle polled (emptied (draining ▸ .draining)).1
    | _ => exact .inr (.inr ⟨rfl, fun drained => by cases drained⟩)
  | released releasing | flushed releasing | ended releasing =>
    obtain rfl : loads = loads' := by simpa [carry] using follows
    refine carried.later rfl rfl fun drained => ?_
    cases drained
    exact releasing ▸ .releasing
  | _ =>
    obtain rfl : loads = loads' := by simpa [carry] using follows
    simpa [Carried, Phase.verdict?, *] using carried

structure Relayed (side : Side) (loads : Sides (Option Packet)) (past : List Happening)
    (session : Session) : Prop where
  carried : Carried loads session side
  sent : written side.opposite .data past ++ (loads.get side).toList.map Packet.serialize =
    (handed side past).map Packet.serialize

theorem Relayed.change {past : List Happening} (relayed : Relayed side loads past session)
    (emptied : ∀ side, session.phase.Drained side → (session.half side).Emptied)
    (change : Change session happenings session')
    (follows : happenings.foldlM carry loads = some loads') :
    Relayed side loads' (past ++ happenings) session' where
  carried := change.carries relayed.carried (emptied side) follows
  sent := by
    rw [written_append, List.append_assoc, change.passes_on relayed.carried follows,
      ← List.append_assoc, relayed.sent, handed_append, List.map_append]

theorem Relayed.all_sent {past : List Happening} (relayed : Relayed side loads past session)
    (drained : session.phase.Drained side) (idle : (session.half side).call = none) :
    written side.opposite .data past = (handed side past).map Packet.serialize := by
  have sent := relayed.sent
  rcases relayed.carried with empty | busy | ⟨_, undrained⟩
  next => rwa [empty, Option.toList_none, List.map_nil, List.append_nil] at sent
  next => simp [idle] at busy
  next => exact absurd drained undrained

theorem control_of_journal {recording : Recording} {moves : List Move}
    (run : (fresh recording).journal moves = some (happenings, session)) (side : Side) :
    written side.opposite .control happenings = taken side .control happenings := by
  have start : written side.opposite .control [] = taken side .control [] := rfl
  refine journal_induction
    (motive := fun past _ => written side.opposite .control past = taken side .control past)
    [] start ?_ run
  intro past happenings session session' same change
  rw [written_append, taken_append, same, change.writes_control]

def Passing (side : Side) (past : List Happening) (session : Session) : Prop :=
  (∀ side, session.phase.Drained side → (session.half side).Emptied) ∧
    ∀ loads, past.foldlM carry ⟨none, none⟩ = some loads → Relayed side loads past session

theorem Passing.fresh (side : Side) (recording : Recording) :
    Passing side [] (Session.fresh recording) := by
  constructor
  next =>
    intro side drained
    cases drained
  next =>
    intro loads follows
    obtain rfl := Option.some.inj follows
    exact ⟨.inl (by cases side <;> rfl), by cases side <;> rfl⟩

theorem Passing.change {past : List Happening} (passing : Passing side past session)
    (change : Change session happenings session') : Passing side (past ++ happenings) session' := by
  obtain ⟨emptied, relayed⟩ := passing
  refine ⟨change.empties emptied, ?_⟩
  intro loads' follows
  rw [List.foldlM_append] at follows
  obtain ⟨loads, before, now⟩ := Option.bind_eq_some_iff.mp follows
  exact (relayed loads before).change emptied change now

theorem passing_of_journal {recording : Recording} {moves : List Move}
    (run : (fresh recording).journal moves = some (happenings, session)) (side : Side) :
    Passing side happenings session :=
  journal_induction [] (Passing.fresh side recording) Passing.change run

theorem packets_and_control_pass_through {recording : Recording} {moves : List Move}
    (run : (fresh recording).journal moves = some (happenings, session))
    (passes : PassThrough happenings) (side : Side) :
    let data := (taken side .data happenings).flatten
    let whole := (Reassembly.ingest {} data).extractAll
    let sent := (written side.opposite .data happenings).flatten
    -- Whole packets, one write for each, and in all no byte that was not taken.
    (∃ packets, packets <+: whole.1 ∧
      written side.opposite .data happenings = packets.map Packet.serialize) ∧
    sent <+: data ∧
    written side.opposite .control happenings = taken side .control happenings ∧
    ∀ closed, session.outcome? = some (.exited (.closed closed)) →
      written side.opposite .data happenings = whole.1.map Packet.serialize ∧
      data = sent ++ whole.2.2.queue.bytes ∧
      Incomplete whole.2.2.queue.bytes ∧
      ∀ packets, (∀ packet ∈ packets, packet.Exact) → serializeAll packets <+: data →
        serializeAll packets <+: sent := by
  intro data whole sent
  obtain ⟨loads, follows⟩ := Option.isSome_iff_exists.mp passes
  have handling := handling_of_journal run side
  obtain ⟨emptied, relaying⟩ := passing_of_journal run side
  have relayed := relaying loads follows
  have framing : Framing data whole.1 whole.2.1 whole.2.2.queue.bytes :=
    Reassembly.framing_extractAll (Reassembly.ingest {} data)
  have begins : serializeAll (handed side happenings) <+: data := ⟨_, handling.conserved⟩
  obtain ⟨packets, loaded, split, written_eq, _⟩ := List.map_eq_append_iff.mp relayed.sent.symm
  have all : sent = serializeAll packets := by
    rw [serializeAll, List.flatMap_def, written_eq]
  have first : packets <+: handed side happenings := ⟨loaded, split.symm⟩
  refine ⟨⟨packets, ?_, written_eq.symm⟩, ?_, control_of_journal run side, ?_⟩
  next => exact first.trans (framing.prefix_of_packets handling.exact begins)
  next =>
    rw [all]
    exact (serializeAll_mono first).trans begins
  next =>
    intro closed ended
    have drained : session.phase.Drained side := phase_of_outcome? ended ▸ .ended
    obtain ⟨idle, incomplete⟩ := emptied side drained
    have everything := relayed.all_sent drained idle
    obtain ⟨same, _, rest⟩ := framing.unique (handling.framing incomplete)
    have allOf : sent = serializeAll whole.1 := by
      rw [same, serializeAll, List.flatMap_def, ← everything]
    refine ⟨by rw [everything, same], ?_, rest ▸ incomplete, ?_⟩
    next => rw [allOf, ← framing.bytes_eq]
    next =>
      intro packets exact begins
      rw [allOf]
      exact serializeAll_mono (framing.prefix_of_packets exact begins)

theorem exchange_passes_through :
    ∃ happenings session, (fresh .absent).journal exchange = some (happenings, session) ∧
      session.outcome? = some (.exited (.closed .simulator)) ∧
      written .client .data happenings = [ping.serialize] ∧
      written .client .data happenings =
        (Reassembly.ingest {} (taken .simulator .data happenings).flatten).extractAll.1.map
          Packet.serialize := by
  have run : ∃ happenings session,
      (fresh .absent).journal exchange = some (happenings, session) ∧
      session.outcome? = some (.exited (.closed .simulator)) ∧ PassThrough happenings ∧
      written .client .data happenings = [ping.serialize] := ⟨_, _, rfl, rfl, rfl, rfl⟩
  obtain ⟨happenings, session, run, ended, passes, sent⟩ := run
  have through := packets_and_control_pass_through run passes .simulator
  exact ⟨happenings, session, run, ended, sent, (through.2.2.2 _ ended).1⟩

end

end Session

end TpmRelay
