import TpmRelay.Proofs.Link.Connections
import TpmRelay.Proofs.Link.Lane

set_option autoImplicit false

namespace TpmRelay.Link.Lane

def Act.called? : Act → Option Nat
  | called call _ => some call
  | _ => none

def Act.obtained? : Act → Option Nat
  | obtained call => some call
  | _ => none

def Act.done? : Act → Option Nat
  | returned call _ | forgotten call => some call
  | called .. | obtained _ | put .. | closing | shut => none

def Act.put? : Act → Option (Nat × Bytes)
  | put call bytes => some (call, bytes)
  | _ => none

-- The close has begun, or is through with the channel.
def Act.ends : Act → Bool
  | closing | shut => true
  | called .. | obtained _ | put .. | returned .. | forgotten _ => false

-- Nothing is written, and a call that returns is aborted.
def Act.Abandons (channel : Channel) : Act → Prop
  | obtained _ | put .. => False
  | returned _ result => result = .error (aborted channel)
  | called .. | forgotten _ | closing | shut => True

/-- What a call has put on a channel since it obtained the writer. -/
structure Piece where
  call : Nat
  -- All that the call is to write.
  bytes : Bytes
  sent : List Bytes

def Piece.puts (piece : Piece) : List (Nat × Bytes) :=
  piece.sent.map (piece.call, ·)

theorem Piece.bytes_puts (piece : Piece) : piece.puts.flatMap Prod.snd = piece.sent.flatten := by
  rw [puts, List.flatMap_map]
  exact List.flatMap_id

structure Request where
  call : Nat
  bytes : Bytes
  left : Option Bytes

def request? : Holder → Option Request
  | .write call bytes left => some ⟨call, bytes, left⟩
  | .store | .release => none

def requests (queue : List Holder) : List Request :=
  queue.filterMap request?

def Request.ask (request : Request) : Nat × Bytes :=
  (request.call, request.bytes)

structure Queued (log : List Act) (asks : List (Nat × Bytes)) : Prop where
  distinct : (log.filterMap Act.called?).Nodup
  started : ∀ ask ∈ asks, .called ask.1 ask.2 ∈ log
  ledger : (log.filterMap Act.called?).Perm (log.filterMap Act.done? ++ asks.map Prod.fst)

/-- What was put is one piece for each call that obtained the writer, in this order. -/
structure Contiguous (log : List Act) (pieces : List Piece) : Prop where
  order : log.filterMap Act.obtained? = pieces.map Piece.call
  puts : log.filterMap Act.put? = pieces.flatMap Piece.puts
  nodup : (pieces.map Piece.call).Nodup
  sound : ∀ piece ∈ pieces,
    .called piece.call piece.bytes ∈ log ∧ piece.sent.flatten <+: piece.bytes
  whole : ∀ call, .returned call (.ok ()) ∈ log →
    ∃ piece ∈ pieces, piece.call = call ∧ piece.sent.flatten = piece.bytes

structure Attended (requests : List Request) (pieces : List Piece) : Prop where
  waiting : ∀ request ∈ requests.tail, request.left = none
  unobtained : ∀ request ∈ requests, request.left = none →
    request.call ∉ pieces.map Piece.call
  writing : ∀ request ∈ requests, ∀ left, request.left = some left →
    ∃ front sent, pieces = front ++ [⟨request.call, request.bytes, sent⟩] ∧
      sent.flatten ++ left = request.bytes

variable {channel : Channel} {ending : Bool} {log acts : List Act} {queue queue' : List Holder}
  {asks : List (Nat × Bytes)} {asking rest : List Request} {pieces front : List Piece}
  {sent : List Bytes} {call : Nat} {bytes left : Bytes}

theorem mem_called (called : .called call bytes ∈ log) : call ∈ log.filterMap Act.called? :=
  List.mem_filterMap.mpr ⟨_, called, rfl⟩

theorem filterMap_quiet {α : Type} {f : Act → Option α} (quiet : ∀ act ∈ acts, f act = none) :
    (log ++ acts).filterMap f = log.filterMap f := by
  rw [List.filterMap_append, List.filterMap_eq_nil_iff.mpr quiet, List.append_nil]

section Asking

theorem Queued.once (queued : Queued log asks) : (log.filterMap Act.done?).Nodup :=
  (List.nodup_append.mp (queued.ledger.nodup_iff.mp queued.distinct)).1

theorem Queued.apart (queued : Queued log asks) : (asks.map Prod.fst).Nodup :=
  (List.nodup_append.mp (queued.ledger.nodup_iff.mp queued.distinct)).2.1

theorem Queued.pending (queued : Queued log asks) (called : .called call bytes ∈ log) :
    (∃ result, .returned call result ∈ log) ∨ .forgotten call ∈ log ∨
      call ∈ asks.map Prod.fst := by
  rcases List.mem_append.mp (queued.ledger.subset (mem_called called)) with done | asks
  next =>
    obtain ⟨act, member, does⟩ := List.mem_filterMap.mp done
    cases act with
    | returned other result =>
      obtain rfl := Option.some.inj does
      exact .inl ⟨result, member⟩
    | forgotten other =>
      obtain rfl := Option.some.inj does
      exact .inr (.inl member)
    | _ => cases does
  next => exact .inr (.inr asks)

theorem Queued.pass (queued : Queued log asks)
    (passes : ∀ act ∈ acts, act.called? = none ∧ act.done? = none) : Queued (log ++ acts) asks := by
  have called : (log ++ acts).filterMap Act.called? = log.filterMap Act.called? :=
    filterMap_quiet fun act member => (passes act member).1
  have done : (log ++ acts).filterMap Act.done? = log.filterMap Act.done? :=
    filterMap_quiet fun act member => (passes act member).2
  refine ⟨?_, fun ask member => List.mem_append_left _ (queued.started ask member), ?_⟩
  next => rw [called]; exact queued.distinct
  next => rw [called, done]; exact queued.ledger

theorem Queued.asked (queued : Queued log asks) (fresh : call ∉ log.filterMap Act.called?) :
    Queued (log ++ [.called call bytes]) (asks ++ [(call, bytes)]) := by
  refine ⟨?_, fun ask member => ?_, ?_⟩
  next =>
    rw [List.filterMap_append, List.nodup_append]
    refine ⟨queued.distinct, by simp [Act.called?], fun other member last isLast same => fresh ?_⟩
    obtain rfl : last = call := by simpa [Act.called?] using isLast
    exact same ▸ member
  next =>
    rcases List.mem_append.mp member with early | late
    next => exact List.mem_append_left _ (queued.started ask early)
    next =>
      obtain rfl := List.mem_singleton.mp late
      simp
  next =>
    have called : (log ++ [Act.called call bytes]).filterMap Act.called? =
      log.filterMap Act.called? ++ [call] := List.filterMap_append
    have done : (log ++ [Act.called call bytes]).filterMap Act.done? =
      log.filterMap Act.done? := filterMap_quiet (by simp [Act.done?])
    rw [called, done, List.map_append, ← List.append_assoc]
    exact queued.ledger.append_right [call]

theorem Queued.leave (queued : Queued log asks) {last : Act}
    (passes : last.called? = none) (leaves : last.done? = some call)
    {others : List (Nat × Bytes)} (fewer : others.Sublist asks)
    (without : (asks.map Prod.fst).Perm (call :: others.map Prod.fst)) :
    Queued (log ++ [last]) others := by
  have called : (log ++ [last]).filterMap Act.called? = log.filterMap Act.called? := by
    simp [passes]
  refine ⟨?_, fun ask member => ?_, ?_⟩
  next => rw [called]; exact queued.distinct
  next => exact List.mem_append_left _ (queued.started ask (fewer.subset member))
  next =>
    rw [called]
    calc
      (log.filterMap Act.called?).Perm (log.filterMap Act.done? ++ asks.map Prod.fst) :=
        queued.ledger
      List.Perm _ (log.filterMap Act.done? ++ call :: others.map Prod.fst) :=
        without.append_left _
      _ = (log ++ [last]).filterMap Act.done? ++ others.map Prod.fst := by simp [leaves]

theorem Queued.without (queued : Queued log asks) (member : call ∈ asks.map Prod.fst) :
    (asks.map Prod.fst).Perm (call :: (asks.filter (·.1 ≠ call)).map Prod.fst) := by
  have others : (asks.filter (·.1 ≠ call)).map Prod.fst = (asks.map Prod.fst).erase call := by
    rw [queued.apart.erase_eq_filter, List.filter_map]
    congr 2
    grind
  rw [others]
  exact List.perm_cons_erase member

end Asking

section Putting

theorem Contiguous.quiet (contiguous : Contiguous log pieces)
    (quiet : ∀ act ∈ acts, act.obtained? = none ∧ act.put? = none)
    (whole : ∀ call, .returned call (.ok ()) ∈ acts →
      ∃ piece ∈ pieces, piece.call = call ∧ piece.sent.flatten = piece.bytes) :
    Contiguous (log ++ acts) pieces := by
  refine ⟨?_, ?_, contiguous.nodup, fun piece member => ?_, fun call returned => ?_⟩
  next => rw [filterMap_quiet fun act member => (quiet act member).1, contiguous.order]
  next => rw [filterMap_quiet fun act member => (quiet act member).2, contiguous.puts]
  next =>
    obtain ⟨called, begun⟩ := contiguous.sound piece member
    exact ⟨List.mem_append_left _ called, begun⟩
  next =>
    rcases List.mem_append.mp returned with early | late
    next => exact contiguous.whole call early
    next => exact whole call late

theorem Contiguous.begins (contiguous : Contiguous log pieces) (called : .called call bytes ∈ log)
    (fresh : call ∉ pieces.map Piece.call) :
    Contiguous (log ++ [.obtained call]) (pieces ++ [⟨call, bytes, []⟩]) := by
  refine ⟨?_, ?_, ?_, fun piece member => ?_, fun other returned => ?_⟩
  next => simp [contiguous.order, Act.obtained?]
  next => simp [contiguous.puts, Act.put?, Piece.puts]
  next =>
    rw [List.map_append, List.nodup_append]
    refine ⟨contiguous.nodup, by simp, fun other member last isLast same => fresh ?_⟩
    obtain rfl : last = call := List.mem_singleton.mp isLast
    exact same ▸ member
  next =>
    rcases List.mem_append.mp member with early | late
    next =>
      obtain ⟨called, begun⟩ := contiguous.sound piece early
      exact ⟨List.mem_append_left _ called, begun⟩
    next =>
      obtain rfl := List.mem_singleton.mp late
      exact ⟨List.mem_append_left _ called, List.nil_prefix⟩
  next =>
    obtain ⟨piece, member, whole⟩ := contiguous.whole other (by simpa using returned)
    exact ⟨piece, List.mem_append_left _ member, whole⟩

theorem Contiguous.puts_more (contiguous : Contiguous log (front ++ [⟨call, bytes, sent⟩]))
    (rest : sent.flatten ++ left = bytes) (count : Nat) :
    Contiguous (log ++ [.put call (left.take count)])
      (front ++ [⟨call, bytes, sent ++ [left.take count]⟩]) := by
  obtain ⟨order, puts, nodup, sound, whole⟩ := contiguous
  refine ⟨?_, ?_, by simpa using nodup, fun piece member => ?_, fun other returned => ?_⟩
  next => simp [order, Act.obtained?]
  next => simp [puts, Act.put?, Piece.puts]
  next =>
    rcases List.mem_append.mp member with early | late
    next =>
      obtain ⟨called, begun⟩ := sound piece (List.mem_append_left _ early)
      exact ⟨List.mem_append_left _ called, begun⟩
    next =>
      obtain rfl := List.mem_singleton.mp late
      refine ⟨List.mem_append_left _ (sound ⟨call, bytes, sent⟩ (by simp)).1, ?_⟩
      refine ⟨left.drop count, ?_⟩
      simp [← rest, List.append_assoc]
  next =>
    obtain ⟨piece, member, same, full⟩ := whole other (by simpa using returned)
    rcases List.mem_append.mp member with early | late
    next => exact ⟨piece, List.mem_append_left _ early, same, full⟩
    next =>
      -- Nothing is left, so nothing more was put.
      obtain rfl := List.mem_singleton.mp late
      obtain rfl : left = [] := by simpa [← rest] using full
      exact ⟨_, List.mem_append_right _ (.head _), same, by simpa using full⟩

theorem Attended.sublist (attended : Attended asking pieces) (fewer : rest.Sublist asking) :
    Attended rest pieces where
  waiting request member := attended.waiting request (fewer.tail.subset member)
  unobtained request member := attended.unobtained request (fewer.subset member)
  writing request member := attended.writing request (fewer.subset member)

theorem Attended.asked (attended : Attended asking pieces)
    (fresh : call ∉ pieces.map Piece.call) :
    Attended (asking ++ [⟨call, bytes, none⟩]) pieces := by
  refine ⟨fun request member => ?_, fun request member waits => ?_, fun request member left has => ?_⟩
  next =>
    cases asking with
    | nil => cases member
    | cons first asking =>
      rcases List.mem_append.mp member with early | late
      next => exact attended.waiting request early
      next =>
        obtain rfl := List.mem_singleton.mp late
        rfl
  next =>
    rcases List.mem_append.mp member with early | late
    next => exact attended.unobtained request early waits
    next =>
      obtain rfl := List.mem_singleton.mp late
      exact fresh
  next =>
    rcases List.mem_append.mp member with early | late
    next => exact attended.writing request early left has
    next =>
      obtain rfl := List.mem_singleton.mp late
      cases has

theorem Attended.begins (attended : Attended (⟨call, bytes, none⟩ :: rest) pieces)
    (apart : call ∉ rest.map Request.call) :
    Attended (⟨call, bytes, some bytes⟩ :: rest) (pieces ++ [⟨call, bytes, []⟩]) := by
  refine ⟨attended.waiting, fun request member waits => ?_, fun request member left has => ?_⟩
  next =>
    rcases List.mem_cons.mp member with rfl | more
    next => cases waits
    next =>
      have other : request.call ≠ call := fun same => apart (same ▸ List.mem_map_of_mem more)
      simpa [other] using attended.unobtained request (.tail _ more) waits
  next =>
    rcases List.mem_cons.mp member with rfl | more
    next =>
      obtain rfl := Option.some.inj has
      exact ⟨pieces, [], rfl, rfl⟩
    next => simp [attended.waiting request more] at has

theorem Attended.puts (attended : Attended (⟨call, bytes, some left⟩ :: rest) pieces)
    (contiguous : Contiguous log pieces) (count : Nat) : ∃ pieces',
      Attended (⟨call, bytes, some (left.drop count)⟩ :: rest) pieces' ∧
        Contiguous (log ++ [.put call (left.take count)]) pieces' := by
  obtain ⟨front, sent, rfl, total⟩ := attended.writing _ (.head _) left rfl
  refine ⟨_, ⟨attended.waiting, fun request member waits => ?_, fun request member left has => ?_⟩,
    contiguous.puts_more total count⟩
  next =>
    rcases List.mem_cons.mp member with rfl | more
    next => cases waits
    next => simpa using attended.unobtained request (.tail _ more) waits
  next =>
    rcases List.mem_cons.mp member with rfl | more
    next =>
      obtain rfl := Option.some.inj has
      exact ⟨front, _, rfl, by simpa using total⟩
    next => simp [attended.waiting request more] at has

end Putting

section Requests

@[simp] theorem requests_append (first second : List Holder) :
    requests (first ++ second) = requests first ++ requests second :=
  List.filterMap_append

@[simp] theorem requests_write (left : Option Bytes) (queue : List Holder) :
    requests (.write call bytes left :: queue) = ⟨call, bytes, left⟩ :: requests queue :=
  rfl

theorem requests_withdraw (queue : List Holder) :
    requests (queue.filter (· ≠ .store)) = requests queue := by
  rw [requests, requests, List.filterMap_filter]
  congr 1
  funext holder
  cases holder <;> simp [request?]

theorem requests_withoutCall (call : Nat) (queue : List Holder) :
    requests (withoutCall call queue) = (requests queue).filter (·.call ≠ call) := by
  rw [requests, requests, withoutCall, List.filterMap_filter, List.filter_filterMap]
  congr 1
  funext holder
  cases holder <;> simp [request?, Option.filter]

theorem asks_withoutCall (call : Nat) (queue : List Holder) :
    (requests (withoutCall call queue)).map Request.ask =
      ((requests queue).map Request.ask).filter (·.1 ≠ call) := by
  rw [requests_withoutCall, List.filter_map]
  rfl

theorem mem_requests (left : Option Bytes) :
    .write call bytes left ∈ queue ↔ ⟨call, bytes, left⟩ ∈ requests queue := by
  rw [requests, List.mem_filterMap]
  constructor
  next => exact fun member => ⟨_, member, rfl⟩
  next =>
    rintro ⟨holder, member, same⟩
    cases holder with
    | write =>
      obtain ⟨rfl, rfl, rfl⟩ := Request.mk.inj (Option.some.inj same)
      exact member
    | store | release => cases same

end Requests

structure Tally (log : List Act) (queue : List Holder) : Prop where
  queued : Queued log ((requests queue).map Request.ask)
  attended : ∃ pieces, Contiguous log pieces ∧ Attended (requests queue) pieces

theorem tally_nil : Tally [] [] where
  queued := ⟨.nil, nofun, .nil⟩
  attended := ⟨[], ⟨rfl, rfl, .nil, nofun, nofun⟩, nofun, nofun, nofun⟩

theorem Tally.same (tally : Tally log queue) (same : requests queue' = requests queue)
    (only : ∀ act ∈ acts, act.ends = true) : Tally (log ++ acts) queue' := by
  have passes : ∀ act ∈ acts, (act.called? = none ∧ act.done? = none) ∧
      act.obtained? = none ∧ act.put? = none := by
    intro act member
    have ends := only act member
    cases act with
    | closing | shut => exact ⟨⟨rfl, rfl⟩, rfl, rfl⟩
    | _ => cases ends
  obtain ⟨pieces, contiguous, attended⟩ := tally.attended
  rw [← same] at attended
  refine ⟨?_, pieces, contiguous.quiet (fun act member => (passes act member).2) ?_, attended⟩
  next =>
    rw [same]
    exact tally.queued.pass fun act member => (passes act member).1
  next => exact fun call returned => nomatch only _ returned

theorem Tally.called (tally : Tally log queue) (fresh : call ∉ log.filterMap Act.called?) :
    Tally (log ++ [.called call bytes]) (queue ++ [.write call bytes none]) := by
  obtain ⟨pieces, contiguous, attended⟩ := tally.attended
  have unobtained : call ∉ pieces.map Piece.call := by
    intro member
    obtain ⟨piece, early, rfl⟩ := List.mem_map.mp member
    exact fresh (mem_called (contiguous.sound piece early).1)
  refine ⟨?_, pieces, contiguous.quiet (by simp [Act.obtained?, Act.put?]) (by simp), ?_⟩
  next =>
    rw [requests_append, List.map_append]
    exact tally.queued.asked fresh
  next =>
    rw [requests_append]
    exact attended.asked unobtained

theorem Tally.begins (tally : Tally log (.write call bytes none :: queue)) :
    Tally (log ++ [.obtained call]) (.write call bytes (some bytes) :: queue) := by
  obtain ⟨pieces, contiguous, attended⟩ := tally.attended
  have called : .called call bytes ∈ log := tally.queued.started (call, bytes) (.head _)
  have apart : call ∉ (requests queue).map Request.call := by
    have apart := tally.queued.apart
    rw [requests_write, List.map_map] at apart
    exact (List.nodup_cons.mp apart).1
  exact ⟨tally.queued.pass (by simp [Act.called?, Act.done?]), _,
    contiguous.begins called (attended.unobtained _ (.head _) rfl), attended.begins apart⟩

theorem Tally.puts (tally : Tally log (.write call bytes (some left) :: queue)) (count : Nat) :
    Tally (log ++ [.put call (left.take count)])
      (.write call bytes (some (left.drop count)) :: queue) := by
  obtain ⟨pieces, contiguous, attended⟩ := tally.attended
  obtain ⟨pieces', attended', contiguous'⟩ := attended.puts contiguous count
  exact ⟨tally.queued.pass (by simp [Act.called?, Act.done?]), pieces', contiguous', attended'⟩

theorem Tally.returns {left : Option Bytes} {result : Except Fault Unit}
    (tally : Tally log (.write call bytes left :: queue))
    (well : result = .ok () → left = some []) :
    Tally (log ++ [.returned call result]) queue := by
  obtain ⟨pieces, contiguous, attended⟩ := tally.attended
  refine ⟨tally.queued.leave rfl rfl (List.sublist_cons_self ..) (.refl _), pieces, ?_,
    attended.sublist (List.sublist_cons_self ..)⟩
  refine contiguous.quiet (by simp [Act.obtained?, Act.put?]) fun other returned => ?_
  obtain ⟨rfl, ok⟩ := Act.returned.inj (List.mem_singleton.mp returned)
  obtain ⟨front, sent, rfl, total⟩ := attended.writing _ (.head _) [] (well ok.symm)
  exact ⟨_, List.mem_append_right _ (.head _), rfl, by simpa using total⟩

theorem Tally.leaves {left : Option Bytes} {last : Act} (tally : Tally log queue)
    (queued : .write call bytes left ∈ queue)
    (leaves : (∃ fault, last = .returned call (.error fault)) ∨ last = .forgotten call) :
    Tally (log ++ [last]) (withoutCall call queue) := by
  obtain ⟨pieces, contiguous, attended⟩ := tally.attended
  have asks : call ∈ ((requests queue).map Request.ask).map Prod.fst :=
    List.mem_map_of_mem (List.mem_map_of_mem ((mem_requests left).mp queued))
  refine ⟨?_, pieces, contiguous.quiet ?_ ?_, ?_⟩
  next =>
    rw [asks_withoutCall]
    have without := tally.queued.without asks
    rcases leaves with ⟨fault, rfl⟩ | rfl
    next => exact tally.queued.leave rfl rfl List.filter_sublist without
    next => exact tally.queued.leave rfl rfl List.filter_sublist without
  next => rcases leaves with ⟨fault, rfl⟩ | rfl <;> simp [Act.obtained?, Act.put?]
  next => rcases leaves with ⟨fault, rfl⟩ | rfl <;> simp
  next =>
    rw [requests_withoutCall]
    exact attended.sublist List.filter_sublist

theorem Tally.serves (tally : Tally log queue) (serves : Serves channel ending queue acts queue')
    (apart : ((log ++ acts).filterMap Act.called?).Nodup) : Tally (log ++ acts) queue' := by
  cases serves with
  | stays | stored => exact tally.same rfl nofun
  | joins other =>
    rcases other with rfl | rfl <;> exact tally.same (by simp [requests, request?]) nofun
  | withdraws => exact tally.same (requests_withdraw queue) nofun
  | called =>
    rw [List.filterMap_append, List.nodup_append] at apart
    exact tally.called fun member => apart.2.2 _ member _ (.head _) rfl
  | unconnected =>
    rw [← List.singleton_append, ← List.append_assoc]
    exact tally.begins.returns nofun
  | begins => exact tally.begins
  | puts => exact tally.puts _
  | fails => exact tally.returns nofun
  | flushes => exact tally.returns fun _ => rfl
  | aborts _ queued => exact tally.leaves queued (.inl ⟨_, rfl⟩)
  | forgets queued => exact tally.leaves queued (.inr rfl)

theorem Tally.advances (tally : Tally log queue)
    (advances : Advances channel ending queue acts queue')
    (apart : ((log ++ acts).filterMap Act.called?).Nodup) : Tally (log ++ acts) queue' := by
  cases advances with
  | serves serves => exact tally.serves serves apart
  | asked => exact tally.same rfl (by simp [Act.ends])
  | released _ only => rcases only with rfl | rfl <;> exact tally.same rfl (by simp [Act.ends])

end TpmRelay.Link.Lane

namespace TpmRelay.Link

open Lane

/-- What happens on a channel, move after move. -/
def transcript (link : Link) (channel : Channel) : List Move → List Act
  | [] => []
  | move :: moves =>
    match link.step move with
    | none => []
    | some (effects, next) => acts link channel move effects ++ next.transcript channel moves

def Happening.sent (stream : Stream) : Happening → Bytes
  | did (.put other bytes) => if other = stream then bytes else []
  | _ => []

-- The bytes that go out on a connection.
def wire (stream : Stream) (past : List Happening) : Bytes :=
  past.flatMap (Happening.sent stream)

variable {link next : Link} {moves : List Move} {move : Move} {effects : List Effect}
  {channel : Channel} {stream : Stream} {past : List Happening} {log : List Act}

theorem mem_acts {act : Act} (member : act ∈ acts link channel move effects) :
    (move = .close ∧ act = .closing) ∨ act ∈ ofMove (first? link channel) move ∨
      ∃ effect ∈ effects, act ∈ ofEffect link channel effect := by
  unfold acts at member
  split at member
  next => exact .inl ⟨rfl, List.mem_singleton.mp member⟩
  next =>
    split at member
    next => exact .inr ((List.mem_append.mp member).imp_right List.mem_flatMap.mp)
    next => cases member

theorem mem_ofEffect {act : Act} {effect : Effect} (does : act ∈ ofEffect link channel effect) :
    (∃ stream call bytes, effect = .put stream bytes ∧ act = .put call bytes ∧
      link.writers.get channel = some stream) ∨
    (∃ call result, effect = .wrote call result ∧ act = .returned call result) ∨
    ∃ stream, effect = .shut stream ∧ act = .shut ∧ link.closer = .shutting channel stream := by
  cases effect with
  | put stream bytes =>
    simp only [ofEffect] at does
    split at does
    next stored =>
      obtain ⟨call, -, rfl⟩ := List.mem_map.mp does
      exact .inl ⟨stream, call, bytes, rfl, rfl, stored⟩
    next => cases does
  | wrote call result => exact .inr (.inl ⟨call, result, rfl, List.mem_singleton.mp does⟩)
  | shut stream =>
    simp only [ofEffect] at does
    split at does
    next shutting => exact .inr (.inr ⟨stream, rfl, List.mem_singleton.mp does, shutting⟩)
    next => cases does
  | _ => cases does

section Wire

@[simp] theorem wire_append (stream : Stream) (first second : List Happening) :
    wire stream (first ++ second) = wire stream first ++ wire stream second :=
  List.flatMap_append

theorem wire_of_silent (silent : ∀ last bytes, .put last bytes ∉ effects) :
    wire stream (report move effects) = [] := by
  rw [wire, report, List.flatMap_cons, List.flatMap_map]
  refine List.append_eq_nil_iff.mpr ⟨rfl, List.flatMap_eq_nil_iff.mpr fun effect member => ?_⟩
  cases effect with
  | put last bytes => exact absurd member (silent last bytes)
  | _ => rfl

theorem put_of_mem_acts {call : Nat} {bytes : Bytes}
    (member : .put call bytes ∈ acts link channel move effects) :
    ∃ stream, link.writers.get channel = some stream ∧ .put stream bytes ∈ effects := by
  rcases mem_acts member with ⟨-, same⟩ | said | ⟨effect, done, does⟩
  next => cases same
  next => cases move <;> simp [ofMove] at said
  next =>
    rcases mem_ofEffect does with
      ⟨stream, _, _, rfl, same, stored⟩ | ⟨_, _, -, same⟩ | ⟨_, -, same, -⟩
    next =>
      obtain ⟨-, rfl⟩ := Act.put.inj same
      exact ⟨stream, stored, done⟩
    next => cases same
    next => cases same

theorem shut_of_mem_acts (member : .shut ∈ acts link channel move effects) :
    ∃ stream, link.closer = .shutting channel stream ∧ .shut stream ∈ effects := by
  rcases mem_acts member with ⟨-, same⟩ | said | ⟨effect, done, does⟩
  next => cases same
  next => cases move <;> simp [ofMove] at said
  next =>
    rcases mem_ofEffect does with
      ⟨_, _, _, -, same, -⟩ | ⟨_, _, -, same⟩ | ⟨stream, rfl, -, shutting⟩
    next => cases same
    next => cases same
    next => exact ⟨stream, shutting, done⟩

theorem puts_of_step (stepped : link.step move = some (effects, next))
    (own : ∀ other last, link.writers.get other = some last → (other = channel ↔ last = stream)) :
    ((acts link channel move effects).filterMap Act.put?).flatMap Prod.snd =
      wire stream (report move effects) := by
  by_cases puts : ∃ last bytes, .put last bytes ∈ effects
  next =>
    obtain ⟨last, bytes, put⟩ := puts
    obtain ⟨-, stored⟩ := (step_change stepped).put put
    next other count =>
    have written : link.stepWriting (.put other count) = some ([.put last bytes], next) := stepped
    simp only [stepWriting] at written
    split at written
    next call whole left rest _ _ queue _ =>
      have about : subject? link (.put other count) = some other := rfl
      have mine := own other last stored
      rw [acts_eq about]
      by_cases same : other = channel
      next =>
        obtain rfl := mine.mp same
        simp [same ▸ stored, same ▸ first?_of_queue queue, same, ofMove, ofEffect, Act.put?, wire,
          report, Happening.sent]
      next =>
        have away : last ≠ stream := mt mine.mpr same
        simp [same, away, wire, report, Happening.sent]
    next => cases written
  next =>
    have quiet : (acts link channel move effects).filterMap Act.put? = [] := by
      refine List.filterMap_eq_nil_iff.mpr fun act member => ?_
      cases act with
      | put call bytes =>
        obtain ⟨last, -, put⟩ := put_of_mem_acts member
        exact absurd ⟨last, bytes, put⟩ puts
      | _ => rfl
    rw [quiet, wire_of_silent fun last bytes put => puts ⟨last, bytes, put⟩]
    rfl

theorem puts_of_transcript {last : Link} {earlier : List Move} (sound : link.Sound)
    (wired : Wired earlier link) (run : link.journal moves = some (past, last))
    (own : ∀ other last, Connected (earlier ++ moves) other last →
      (other = channel ↔ last = stream)) :
    ((link.transcript channel moves).filterMap Act.put?).flatMap Prod.snd = wire stream past := by
  induction moves generalizing link earlier past with
  | nil =>
    obtain ⟨rfl, -⟩ := Prod.mk.inj (Option.some.inj run)
    rfl
  | cons move moves ih =>
    obtain ⟨effects, next, later, stepped, rest, rfl⟩ := journal_cons run
    have change := step_change stepped
    have split : earlier ++ move :: moves = earlier ++ [move] ++ moves := by simp
    have first : ((acts link channel move effects).filterMap Act.put?).flatMap Prod.snd =
        wire stream (report move effects) := puts_of_step stepped fun other last stored =>
      own other last (List.mem_append_left _ (wired.writes other last stored))
    rw [split] at own
    have more := ih (sound.change change) (wired.change sound change) rest own
    simp only [transcript, stepped, List.filterMap_append, List.flatMap_append, wire_append, first,
      more]

end Wire

section Ending

theorem Lane.Advances.abandons {queue queue' : List Holder} {done : List Act}
    (advances : Advances channel true queue done queue') :
    ∀ act ∈ done, act.Abandons channel := by
  cases advances with
  | serves serves => cases serves <;> simp_all [Act.Abandons]
  | asked => simp [Act.Abandons]
  | released _ only => rcases only with rfl | rfl <;> simp [Act.Abandons]

theorem Lane.Serves.ends {ending : Bool} {queue queue' : List Holder} {done : List Act}
    (serves : Serves channel ending queue done queue') : ∀ act ∈ done, act.ends = false := by
  cases serves <;> simp [Act.ends]

theorem Lane.Advances.ends {ending : Bool} {queue queue' : List Holder} {done : List Act}
    (advances : Advances channel ending queue done queue') {act : Act} (member : act ∈ done)
    (ends : act.ends = true) : done = [.closing] ∨ ending = true := by
  cases advances with
  | serves serves => simp [serves.ends act member] at ends
  | asked => exact .inl rfl
  | released asked => exact .inr asked

theorem Lane.Advances.pairwise {ending : Bool} {queue queue' : List Holder} {done : List Act}
    (advances : Advances channel ending queue done queue') :
    done.Pairwise fun early late => early.ends = true → late.Abandons channel := by
  cases advances with
  | serves serves => cases serves <;> simp [Act.ends]
  | asked => simp
  | released _ only => rcases only with rfl | rfl <;> simp

theorem close_of_acts (member : .closing ∈ acts link channel move effects) : move = .close := by
  rcases mem_acts member with ⟨close, -⟩ | said | ⟨effect, -, does⟩
  next => exact close
  next => cases move <;> simp [ofMove] at said
  next => cases effect <;> simp [ofEffect] at does

end Ending

section Shutting

-- Nothing is written any more, for the link is closing or has failed to be established.
def Spent (link : Link) : Prop :=
  link.closing = true ∨ link.state ≠ .idle ∧ (∀ channel, link.writers.get channel = none) ∧
    (link.establishing = .absent ∨ link.establishing.abandons)

theorem Spent.change (spent : link.Spent) (change : Change link move effects next) :
    next.Spent := by
  rcases spent with closing | ⟨busy, unstored, stage⟩
  next => exact .inl (change.closing closing)
  next =>
    have other {stage' : Establishing} (now : link.establishing = stage')
        (busy : stage' ≠ .absent) (works : stage'.abandons = false) : False := by
      rcases stage with absent | abandons
      next => exact busy (now ▸ absent)
      next => simp [now, works] at abandons
    cases change with
    | connects _ idle | turns _ _ idle => exact absurd idle busy
    | binds stage | launches stage | connectsOne stage | connectsBoth stage | abandons _ _ stage
    | storesControl stage | storesData stage => exact (other stage nofun rfl).elim
    | lateTurn => exact .inr ⟨busy, unstored, .inl rfl⟩
    | abandonsOne => exact .inr ⟨busy, unstored, .inr rfl⟩
    | settles _ _ _ _ failed =>
      refine .inr ⟨?_, unstored, .inl rfl⟩
      rcases failed with rfl | rfl
      next => exact State.fail_ne_idle busy
      next => exact busy
    | lastReadEnds => exact .inr ⟨nofun, unstored, stage⟩
    | closesDialing | closesWaiting => exact .inl rfl
    | closeLocks _ stored => simp [unstored] at stored
    | _ => exact .inr ⟨busy, unstored, stage⟩

theorem Change.spends (sound : link.Sound) (answers : link.Answers)
    (change : Change link move effects next) (shut : .shut stream ∈ effects) : next.Spent := by
  have failed (abandons : link.establishing.abandons) :
      link.state ≠ .idle ∧ ∀ channel, link.writers.get channel = none := by
    cases stage : link.establishing with
    | abandoning =>
      obtain ⟨state, bare⟩ := sound.roomy stage
      exact ⟨state, bare.1⟩
    | _ => simp [stage, Establishing.abandons] at abandons
  have closing (busy : link.closer ≠ .absent) : link.closing = true := (answers.closing busy).1
  cases change with
  | waits _ quiet => exact absurd (quiet _ shut) (by simp [Effect.writes])
  | abandonsOne abandoning =>
    obtain ⟨state, unstored⟩ := failed (by simp [abandoning, Establishing.abandons])
    exact .inr ⟨state, unstored, .inr rfl⟩
  | settles _ _ _ _ failed' shuts =>
    obtain ⟨state, unstored⟩ := failed (shuts stream shut)
    refine .inr ⟨?_, unstored, .inl rfl⟩
    rcases failed' with rfl | rfl
    next => exact State.fail_ne_idle state
    next => exact state
  | closesDialing => exact .inl rfl
  | closesAlone waiting => exact .inl (closing (by simp [waiting]))
  | passesControl passes | terminates passes | returns passes => exact .inl (closing passes.busy)
  | stops stopping => exact .inl (closing (by simp [stopping]))
  | abandons => simp [unlistenAll] at shut
  | lastReadEnds =>
    unfold telling at shut
    split at shut <;> simp at shut
  | _ => simp at shut

theorem Spent.silent (spent : link.Spent) {bytes : Bytes}
    (change : Change link move effects next) : .put stream bytes ∉ effects := by
  intro put
  obtain ⟨open', stored⟩ := change.put put
  rcases spent with closing | ⟨-, unstored, -⟩
  next => simp [open'] at closing
  next => simp [unstored] at stored

def Parting (past : List Happening) : Prop :=
  past.Pairwise fun early late => ∀ stream bytes,
    early = .did (.shut stream) → late ≠ .did (.put stream bytes)

theorem parting_report (change : Change link move effects next) :
    Parting (report move effects) := by
  by_cases puts : ∃ stream bytes, .put stream bytes ∈ effects
  next =>
    obtain ⟨stream, bytes, put⟩ := puts
    obtain ⟨-, -⟩ := change.put put
    simp [Parting, report]
  next =>
    refine List.pairwise_of_forall_mem_list fun early _ late member stream bytes _ same => ?_
    subst same
    simp only [report, List.mem_cons, reduceCtorEq, List.mem_map, Happening.did.injEq,
      exists_eq_right, false_or] at member
    exact puts ⟨stream, bytes, member⟩

end Shutting

-- What is known of a channel after any moves.
structure Recorded (channel : Channel) (moves : List Move) (past : List Happening)
    (log : List Act) (link : Link) : Prop where
  sound : link.Sound
  answers : link.Answers
  locked : link.Locked
  wired : Wired moves link
  tally : Tally log (link.locks.get channel)
  ended : ∀ act ∈ log, act.ends = true → link.closing = true
  abandoned : log.Pairwise fun early late => early.ends = true → late.Abandons channel
  puts : ∀ call bytes, .put call bytes ∈ log → ∃ stream, Connected moves channel stream
  shuts : .shut ∈ log → ∃ stream, Connected moves channel stream ∧ .did (.shut stream) ∈ past
  spent : ∀ stream, .did (.shut stream) ∈ past → link.Spent
  parting : Parting past

theorem Recorded.step (recorded : Recorded channel moves past log link)
    (stepped : link.step move = some (effects, next))
    (apart : ((log ++ acts link channel move effects).filterMap Act.called?).Nodup) :
    Recorded channel (moves ++ [move]) (past ++ report move effects)
      (log ++ acts link channel move effects) next := by
  obtain ⟨sound, answers, locked, wired, tally, ended, abandoned, puts, shuts, spent, parting⟩ :=
    recorded
  have advances := step_advances answers locked stepped channel
  have change := step_change stepped
  have before {stream : Stream} (connected : Connected moves channel stream) :
      Connected (moves ++ [move]) channel stream := List.mem_append_left _ connected
  refine ⟨sound.change change, answers.change change, locked.step stepped,
    wired.change sound change, tally.advances advances apart, fun act member ends => ?_, ?_,
    fun call bytes member => ?_, fun member => ?_, fun stream member => ?_, ?_⟩
  next =>
    rcases List.mem_append.mp member with early | late
    next => exact change.closing (ended act early ends)
    next =>
      rcases advances.ends late ends with asked | closing
      next =>
        have closes : .closing ∈ acts link channel move effects := by simp [asked]
        obtain rfl := close_of_acts closes
        exact change.asked
      next => exact change.closing closing
  next =>
    refine List.pairwise_append.mpr ⟨abandoned, advances.pairwise, ?_⟩
    intro early before late after ends
    rw [ended early before ends] at advances
    exact advances.abandons late after
  next =>
    rcases List.mem_append.mp member with early | late
    next =>
      obtain ⟨stream, connected⟩ := puts call bytes early
      exact ⟨stream, before connected⟩
    next =>
      obtain ⟨stream, stored, -⟩ := put_of_mem_acts late
      exact ⟨stream, before (wired.writes channel stream stored)⟩
  next =>
    rcases List.mem_append.mp member with early | late
    next =>
      obtain ⟨stream, connected, shut⟩ := shuts early
      exact ⟨stream, before connected, List.mem_append_left _ shut⟩
    next =>
      obtain ⟨stream, shutting, shut⟩ := shut_of_mem_acts late
      exact ⟨stream, before (wired.shuts channel stream shutting),
        List.mem_append_right _ (mem_report.mpr shut)⟩
  next =>
    rcases List.mem_append.mp member with early | late
    next => exact (spent stream early).change change
    next => exact change.spends sound answers (mem_report.mp late)
  next =>
    refine List.pairwise_append.mpr ⟨parting, parting_report change, ?_⟩
    rintro _ early _ late stream bytes rfl rfl
    exact (spent stream early).silent change (mem_report.mp late)

theorem recorded_of_journal {last : Link} {earlier : List Move} {happenings : List Happening}
    (recorded : Recorded channel earlier past log link)
    (run : link.journal moves = some (happenings, last))
    (apart : ((log ++ link.transcript channel moves).filterMap Act.called?).Nodup) :
    Recorded channel (earlier ++ moves) (past ++ happenings)
      (log ++ link.transcript channel moves) last := by
  induction moves generalizing link earlier past happenings log with
  | nil =>
    obtain ⟨rfl, rfl⟩ := Prod.mk.inj (Option.some.inj run)
    rwa [transcript, List.append_nil, List.append_nil, List.append_nil]
  | cons move moves ih =>
    obtain ⟨effects, next, later, stepped, rest, rfl⟩ := journal_cons run
    simp only [transcript, stepped, ← List.append_assoc] at apart ⊢
    have first := apart
    rw [List.filterMap_append] at first
    have split : earlier ++ move :: moves = earlier ++ [move] ++ moves := by simp
    rw [split]
    exact ih (recorded.step stepped (List.nodup_append.mp first).1) rest apart

theorem recorded_fresh (role : Role) (channel : Channel) :
    Recorded channel [] [] [] (fresh role) where
  sound := sound_fresh role
  answers := rfl
  locked := nofun
  wired := wired_fresh role
  tally := by
    cases channel with
    | control => exact tally_nil
    | data => exact tally_nil
  ended := nofun
  abandoned := .nil
  puts := nofun
  shuts := nofun
  spent := nofun
  parting := .nil

theorem step_abort {call : Nat} (closing : link.closing = true)
    (queued : link.hasCall channel call = true) :
    ∃ next, link.step (.abort channel call) =
      some ([.wrote call (.error (aborted channel))], next) :=
  ⟨_, if_pos ⟨closing, queued⟩⟩

theorem writes_never_interleave {role : Role} {moves : List Move} {past : List Happening}
    (run : (fresh role).journal moves = some (past, link)) (channel : Channel)
    (apart : (((fresh role).transcript channel moves).filterMap Act.called?).Nodup)
    (distinct : ∀ stream, .connected .control stream ∈ moves → .connected .data stream ∉ moves) :
    let log := (fresh role).transcript channel moves
    (∃ pieces, Contiguous log pieces ∧
      (∀ stream, .connected channel stream ∈ moves →
        wire stream past = pieces.flatMap (·.sent.flatten)) ∧
      ((∀ stream, .connected channel stream ∉ moves) → pieces.flatMap (·.sent.flatten) = [])) ∧
    (log.filterMap Act.done?).Nodup ∧
    (log.Pairwise fun early late => early.ends = true → late.Abandons channel) ∧
    (.shut ∈ log → ∃ stream, .connected channel stream ∈ moves ∧ .did (.shut stream) ∈ past) ∧
    (past.Pairwise fun early late => ∀ stream bytes,
      early = .did (.shut stream) → late ≠ .did (.put stream bytes)) ∧
    ∀ call bytes, .called call bytes ∈ log → .forgotten call ∉ log →
      (∃ result, .returned call result ∈ log) ∨
        link.hasCall channel call = true ∧ (.closing ∈ log → ∃ next,
          link.step (.abort channel call) =
            some ([.wrote call (.error (aborted channel))], next)) := by
  intro log
  have recorded : Recorded channel moves past log link :=
    recorded_of_journal (recorded_fresh role channel) run apart
  have queued := recorded.tally.queued
  obtain ⟨pieces, contiguous, -⟩ := recorded.tally.attended
  have sent : (log.filterMap Act.put?).flatMap Prod.snd = pieces.flatMap (·.sent.flatten) := by
    rw [contiguous.puts]
    simp [List.flatMap_assoc, Piece.bytes_puts]
  refine ⟨⟨pieces, contiguous, fun stream connected => ?_, fun unconnected => ?_⟩, queued.once,
    recorded.abandoned, recorded.shuts, recorded.parting, fun call bytes called kept => ?_⟩
  next =>
    rw [← sent]
    exact (puts_of_transcript (sound_fresh role) (wired_fresh role) run fun _ _ other =>
      recorded.wired.same_iff distinct connected other).symm
  next =>
    rw [← sent]
    refine List.flatMap_eq_nil_iff.mpr fun put member => ?_
    obtain ⟨act, member, puts⟩ := List.mem_filterMap.mp member
    cases act with
    | put call bytes =>
      obtain ⟨stream, connected⟩ := recorded.puts call bytes member
      exact absurd connected (unconnected stream)
    | _ => cases puts
  next =>
    rcases queued.pending called with returned | forgotten | asks
    next => exact .inl returned
    next => exact absurd forgotten kept
    next =>
      have waits : link.hasCall channel call = true := by
        simp only [List.map_map, List.mem_map] at asks
        obtain ⟨request, waits, rfl⟩ := asks
        exact hasCall_iff.mpr ⟨_, _, (mem_requests request.left).mpr waits⟩
      exact .inr ⟨waits, fun asked => step_abort (recorded.ended _ asked rfl) waits⟩

-- A call has written, another is writing and a third comes when the link is closed.
def interrupted : List Move :=
  admission ++ [.write 1 .control [1, 2, 3], .write 2 .control [4, 5], .begin .control,
    .put .control 1, .put .control 2, .flush .control (.ok ()), .begin .control, .put .control 1,
    .close, .closeQueueUp, .closeAlone, .closeQueueUp, .write 3 .control [6], .abort .control 2,
    .closeLock, .closeShut (.ok ())]

theorem interrupted_writes : ∃ past link,
    (fresh .waiting).journal interrupted = some (past, link) ∧
    (((fresh .waiting).transcript .control interrupted).filterMap Act.called?).Nodup ∧
    (∃ pieces, Contiguous ((fresh .waiting).transcript .control interrupted) pieces ∧
      wire 0 past = [1, 2, 3, 4] ∧ [1, 2, 3, 4] = pieces.flatMap (·.sent.flatten)) ∧
    wire 1 past = [] ∧ .did (.shut 0) ∈ past ∧
    ∃ next, link.step (.abort .control 3) =
      some ([.wrote 3 (.error (aborted .control))], next) := by
  obtain ⟨past, link, run, control, data⟩ : ∃ past link,
    (fresh .waiting).journal interrupted = some (past, link) ∧ wire 0 past = [1, 2, 3, 4] ∧
      wire 1 past = [] := ⟨_, _, rfl, rfl, rfl⟩
  have log : (fresh .waiting).transcript .control interrupted =
      [.called 1 [1, 2, 3], .called 2 [4, 5], .obtained 1, .put 1 [1], .put 1 [2, 3],
        .returned 1 (.ok ()), .obtained 2, .put 2 [4], .closing, .called 3 [6],
        .returned 2 (.error (aborted .control)), .shut] := rfl
  have apart : (((fresh .waiting).transcript .control interrupted).filterMap Act.called?).Nodup := by
    rw [log]
    decide
  have connected (stream : Stream) : .connected .control stream ∈ interrupted ↔ stream = 0 := by
    simp [interrupted, admission]
  obtain ⟨⟨pieces, contiguous, sent, -⟩, -, -, shut, -, pending⟩ :=
    writes_never_interleave run .control apart (by simp [interrupted, admission])
  have wires := sent 0 ((connected 0).mpr rfl)
  obtain ⟨stream, own, shut⟩ := shut (by simp [log])
  obtain rfl := (connected stream).mp own
  have waits := pending 3 [6] (by simp [log]) (by simp [log])
  simp only [log, List.mem_cons] at waits
  have queued := waits.resolve_left (by simp)
  exact ⟨past, link, run, apart, ⟨pieces, contiguous, control, control ▸ wires⟩, data, shut,
    queued.2 (by simp)⟩

end TpmRelay.Link
