set_option autoImplicit false

namespace TpmRelay

variable {σ α β ε : Type}

/-- The first item that is wrong by itself decides the error. -/
def First (bad : α → ε → Prop) (items : List α) (error : ε) : Prop :=
  ∃ before item after, items = before ++ item :: after ∧
    (∀ other ∈ before, ∀ error, ¬ bad other error) ∧ bad item error

/-- What the last item is read as, or the default if there is none. -/
def LastReads (reads : α → β → Prop) (items : List α) (default result : β) : Prop :=
  match items.getLast? with
  | none => result = default
  | some item => reads item result

section Outcome

@[simp] theorem pure_eq (item : α) : (pure item : Except ε α) = .ok item := rfl

@[simp] theorem throw_eq (error : ε) : (throw error : Except ε α) = .error error := rfl

@[simp] theorem ok_bind (item : α) (finish : α → Except ε β) : .ok item >>= finish = finish item :=
  rfl

@[simp] theorem error_bind (error : ε) (finish : α → Except ε β) :
    (.error error : Except ε α) >>= finish = .error error := rfl

@[simp] theorem bind_ok (outcome : Except ε α) : (outcome >>= fun item => .ok item) = outcome := by
  cases outcome <;> rfl

@[simp] theorem map_ok (item : α) (f : α → β) : (.ok item : Except ε α).map f = .ok (f item) := rfl

variable {outcome other : Except ε α} {error : ε} {f : α → β}

theorem map_eq_ok {result : β} :
    outcome.map f = .ok result ↔ ∃ item, outcome = .ok item ∧ f item = result := by
  cases outcome <;> simp [Except.map]

theorem map_eq_error : outcome.map f = .error error ↔ outcome = .error error := by
  cases outcome <;> simp [Except.map]

theorem mapError_map {g : ε → ε} : (outcome.map f).mapError g = (outcome.mapError g).map f := by
  cases outcome <;> rfl

theorem toOption_congr (same : ∀ item, outcome = .ok item ↔ other = .ok item) :
    outcome.toOption = other.toOption := by
  cases outcome <;> cases other <;> simp_all [Except.toOption]

end Outcome

variable {step : σ → α → Except ε σ} {bad : α → ε → Prop} {items : List α} {seen last : σ}
  {error : ε}

theorem not_first_nil : ¬ First bad [] error := by
  rintro ⟨before, item, after, split, -⟩
  simp at split

theorem first_cons {item : α} :
    First bad (item :: items) error ↔
      bad item error ∨ (∀ error, ¬ bad item error) ∧ First bad items error := by
  constructor
  next =>
    rintro ⟨before, found, after, split, fine, wrong⟩
    cases before with
    | nil =>
      obtain ⟨rfl, rfl⟩ := List.cons_eq_cons.mp split
      exact .inl wrong
    | cons other before =>
      obtain ⟨rfl, rfl⟩ := List.cons_eq_cons.mp split
      refine .inr ⟨fine item List.mem_cons_self, before, found, after, rfl, ?_, wrong⟩
      exact fun other member => fine other (List.mem_cons_of_mem _ member)
  next =>
    rintro (wrong | ⟨fine, before, found, after, rfl, rest, wrong⟩)
    next => exact ⟨[], item, items, rfl, nofun, wrong⟩
    next =>
      refine ⟨item :: before, found, after, rfl, ?_, wrong⟩
      rw [List.forall_mem_cons]
      exact ⟨fine, rest⟩

theorem exists_first (wrong : ∃ item ∈ items, ∃ error, bad item error) :
    ∃ error, First bad items error := by
  induction items with
  | nil => simp at wrong
  | cons item items ih =>
    by_cases here : ∃ error, bad item error
    next =>
      obtain ⟨error, here⟩ := here
      exact ⟨error, first_cons.mpr (.inl here)⟩
    next =>
      have later : ∃ item ∈ items, ∃ error, bad item error := by
        simpa [here] using wrong
      obtain ⟨error, first⟩ := ih later
      exact ⟨error, first_cons.mpr (.inr ⟨not_exists.mp here, first⟩)⟩

theorem First.map {worse : α → ε → Prop} {f : ε → ε}
    (wrong : ∀ item ∈ items, ∀ error, bad item error → worse item (f error))
    (fine : ∀ item ∈ items, (∀ error, ¬ bad item error) → ∀ error, ¬ worse item error)
    (first : First bad items error) : First worse items (f error) := by
  obtain ⟨before, item, after, rfl, passed, here⟩ := first
  refine ⟨before, item, after, rfl, ?_, wrong item (by simp) error here⟩
  intro other member
  exact fine other (by simp [member]) (passed other member)

theorem lastReads_iff {reads : α → β → Prop} {default result : β} :
    LastReads reads items default result ↔
      items.getLast?.elim (result = default) (reads · result) := by
  rw [LastReads]
  cases items.getLast? <;> rfl

theorem lastReads_unique {reads : α → β → Prop} {default one two : β}
    (first : LastReads reads items default one) (second : LastReads reads items default two)
    (unique : ∀ {item one two}, reads item one → reads item two → one = two) : one = two := by
  rw [LastReads] at first second
  cases final : items.getLast? with
  | none =>
    rw [final] at first second
    rw [first, second]
  | some item =>
    rw [final] at first second
    exact unique first second

theorem lastReads_cons {reads : α → β → Prop} {item : α} {default middle result : β}
    (here : reads item middle) (later : LastReads reads items middle result) :
    LastReads reads (item :: items) default result := by
  rw [LastReads, List.getLast?_cons]
  cases final : items.getLast? with
  | none =>
    rw [LastReads, final] at later
    rwa [Option.getD_none, later]
  | some other =>
    rw [LastReads, final] at later
    exact later

theorem lastReads_some {result : Option α} :
    LastReads (fun item result => result = some item) items none result ↔
      result = items.getLast? := by
  rw [lastReads_iff]
  cases items.getLast? <;> rfl

theorem lastReads_map {γ : Type} {f : γ → α} {reads : α → β → Prop} {items : List γ}
    {default result : β} :
    LastReads reads (items.map f) default result ↔
      LastReads (fun item => reads (f item)) items default result := by
  rw [lastReads_iff, lastReads_iff, List.getLast?_map]
  cases items.getLast? <;> rfl

section Fold

variable (refuses : ∀ seen item error, step seen item = .error error ↔ bad item error)
include refuses

theorem foldlM_eq_error :
    items.foldlM step seen = .error error ↔ First bad items error := by
  induction items generalizing seen with
  | nil => simp [not_first_nil]
  | cons item items ih =>
    rw [List.foldlM_cons, first_cons]
    cases taken : step seen item with
    | error other =>
      have wrong := (refuses seen item other).mp taken
      have only : bad item error ↔ other = error := by
        rw [← refuses seen, taken, Except.error.injEq]
      have fails : ¬ ∀ error, ¬ bad item error := fun fine => fine other wrong
      simp [fails, only]
    | ok next =>
      have fine : ∀ error, ¬ bad item error := by
        intro error wrong
        rw [← refuses seen, taken] at wrong
        contradiction
      simpa [fine] using ih

theorem exists_foldlM_eq_ok :
    (∃ last, items.foldlM step seen = .ok last) ↔ ∀ item ∈ items, ∀ error, ¬ bad item error := by
  constructor
  next =>
    rintro ⟨last, read⟩ item member error wrong
    obtain ⟨first, found⟩ := exists_first ⟨item, member, error, wrong⟩
    rw [(foldlM_eq_error refuses).mpr found] at read
    contradiction
  next =>
    intro fine
    cases read : items.foldlM step seen with
    | ok last => exact ⟨last, rfl⟩
    | error error =>
      obtain ⟨before, item, after, rfl, -, wrong⟩ := (foldlM_eq_error refuses).mp read
      exact absurd wrong (fine item (by simp) error)

theorem fold_eq_error {finish : σ → Except ε β} :
    items.foldlM step seen >>= finish = .error error ↔
      First bad items error ∨
        ∃ last, items.foldlM step seen = .ok last ∧ finish last = .error error := by
  have failed : items.foldlM step seen = .error error ↔ First bad items error :=
    foldlM_eq_error refuses
  rw [← failed]
  cases items.foldlM step seen <;> simp

end Fold

theorem fold_eq_ok {finish : σ → Except ε β} {result : β} :
    items.foldlM step seen >>= finish = .ok result ↔
      ∃ last, items.foldlM step seen = .ok last ∧ finish last = .ok result := by
  cases items.foldlM step seen <;> simp

theorem lastReads_of_foldlM (get : σ → β) (heeds : α → Bool) (reads : α → β → Prop)
    (sets : ∀ {seen item next}, step seen item = .ok next →
      if heeds item then reads item (get next) else get next = get seen)
    (read : items.foldlM step seen = .ok last) :
    LastReads reads (items.filter heeds) (get seen) (get last) := by
  induction items generalizing seen with
  | nil =>
    obtain rfl : seen = last := Except.ok.inj read
    rfl
  | cons item items ih =>
    rw [List.foldlM_cons] at read
    cases taken : step seen item with
    | error error =>
      rw [taken] at read
      contradiction
    | ok next =>
      rw [taken] at read
      have later := ih read
      have here := sets taken
      by_cases heeded : heeds item
      next =>
        rw [if_pos heeded] at here
        rw [List.filter_cons_of_pos heeded]
        exact lastReads_cons here later
      next =>
        rw [if_neg heeded] at here
        rwa [List.filter_cons_of_neg heeded, ← here]

theorem foldlM_filter {heeds : α → Bool}
    (ignores : ∀ seen item, heeds item = false → step seen item = .ok seen) :
    (items.filter heeds).foldlM step seen = items.foldlM step seen := by
  induction items generalizing seen with
  | nil => rfl
  | cons item items ih =>
    by_cases heeded : heeds item
    next =>
      rw [List.filter_cons_of_pos heeded, List.foldlM_cons, List.foldlM_cons]
      exact congrArg _ (funext fun _ => ih)
    next =>
      rw [List.filter_cons_of_neg heeded, List.foldlM_cons,
        ignores seen item (Bool.of_not_eq_true heeded), ih]
      rfl

theorem foldlM_congr {heeds : α → Bool} {others : List α}
    (ignores : ∀ seen item, heeds item = false → step seen item = .ok seen)
    (same : items.filter heeds = others.filter heeds) :
    items.foldlM step seen = others.foldlM step seen := by
  rw [← foldlM_filter ignores, same, foldlM_filter ignores]

theorem mapError_foldlM {other : σ → α → Except ε σ} {f : ε → ε}
    (same : ∀ seen item, (step seen item).mapError f = other seen item) :
    (items.foldlM step seen).mapError f = items.foldlM other seen := by
  induction items generalizing seen with
  | nil => rfl
  | cons item items ih =>
    rw [List.foldlM_cons, List.foldlM_cons, ← same seen item]
    cases step seen item with
    | error error => rfl
    | ok next => exact ih

theorem mapError_fold {other : σ → α → Except ε σ} {f : ε → ε} {finish finish' : σ → Except ε β}
    (same : ∀ seen item, (step seen item).mapError f = other seen item)
    (ends : ∀ last, (finish last).mapError f = finish' last) :
    (items.foldlM step seen >>= finish).mapError f = items.foldlM other seen >>= finish' := by
  rw [← mapError_foldlM same]
  cases items.foldlM step seen with
  | error error => rfl
  | ok last => exact ends last

end TpmRelay
