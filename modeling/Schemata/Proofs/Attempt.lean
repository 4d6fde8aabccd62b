import Mathlib.Data.List.Forall2
import Schemata.Attempt

/-!
# Outcomes of attempts

How an attempt that is put together from others ends: it goes on with an answer in the state that
the first part left, and stops at the first failure.
-/
namespace Schemata.Attempt

variable {σ ε α β : Type}

@[simp]
theorem outcome_throw (error : ε) (state : σ) :
    outcome (throw error : Attempt σ ε α) state = (.error error, state) :=
  rfl

@[simp]
theorem outcome_get (state : σ) :
    outcome (get : Attempt σ ε σ) state = (.ok state, state) :=
  rfl

@[simp]
theorem outcome_set (state next : σ) :
    outcome (set next : Attempt σ ε PUnit) state = (.ok ⟨⟩, next) :=
  rfl

@[simp]
theorem outcome_ofExcept (answer : Except ε α) (state : σ) :
    outcome (ofExcept answer : Attempt σ ε α) state = (answer, state) :=
  rfl

@[simp]
theorem outcome_look (question : σ → Except ε α) (state : σ) :
    outcome (look question) state = (question state, state) :=
  rfl

@[simp]
theorem outcome_bind
    (step : Attempt σ ε α) (next : α → Attempt σ ε β) (state : σ) :
    outcome (step >>= next) state =
      match outcome step state with
      | (.ok answer, later) => outcome (next answer) later
      | (.error error, later) => (.error error, later) := by
  show StateT.run (ExceptT.run (step >>= next)) state = _
  unfold outcome
  simp only [ExceptT.run_bind, StateT.run_bind]
  cases StateT.run (ExceptT.run step) state with
  | mk answer later => cases answer <;> rfl

@[simp]
theorem outcome_map
    (change : α → β) (step : Attempt σ ε α) (state : σ) :
    outcome (change <$> step) state =
      match outcome step state with
      | (.ok answer, later) => (.ok (change answer), later)
      | (.error error, later) => (.error error, later) := by
  rw [map_eq_pure_bind, outcome_bind]
  rfl

/-- To change what is answered changes nothing else. -/
theorem outcome_map_eq
    (change : α → β) (step : Attempt σ ε α) (state : σ) :
    outcome (change <$> step) state =
      (change <$> (outcome step state).1, (outcome step state).2) := by
  rw [outcome_map]
  obtain ⟨answer, later⟩ := outcome step state
  cases answer <;> rfl

/-- An attempt that succeeds goes on from the answer and the state of its first part. -/
theorem outcome_bind_eq_ok_iff
    {step : Attempt σ ε α} {next : α → Attempt σ ε β} {state later : σ} {answer : β} :
    outcome (step >>= next) state = (.ok answer, later) ↔
      ∃ value between,
        outcome step state = (.ok value, between) ∧
          outcome (next value) between = (.ok answer, later) := by
  rw [outcome_bind]
  obtain ⟨first, between⟩ := outcome step state
  cases first with
  | ok value =>
      constructor
      · intro success
        exact ⟨value, between, rfl, success⟩
      · rintro ⟨_, _, ⟨⟩, success⟩
        exact success
  | error error =>
      constructor
      · intro impossible
        cases impossible
      · rintro ⟨_, _, ⟨⟩, _⟩

/-- It fails if its first part does, or what follows in the state that the first part left. -/
theorem outcome_bind_eq_error_iff
    {step : Attempt σ ε α} {next : α → Attempt σ ε β} {state later : σ} {error : ε} :
    outcome (step >>= next) state = (.error error, later) ↔
      outcome step state = (.error error, later) ∨
        ∃ value between,
          outcome step state = (.ok value, between) ∧
            outcome (next value) between = (.error error, later) := by
  rw [outcome_bind]
  obtain ⟨first, between⟩ := outcome step state
  cases first with
  | ok value =>
      constructor
      · intro failed
        exact Or.inr ⟨value, between, rfl, failed⟩
      · rintro (⟨⟨⟩⟩ | ⟨_, _, ⟨⟩, failed⟩)
        exact failed
  | error other =>
      constructor
      · intro failed
        cases failed
        exact Or.inl rfl
      · rintro (failed | ⟨_, _, ⟨⟩, _⟩)
        cases failed
        rfl

theorem outcome_pure_eq_ok_iff {state later : σ} {value answer : α} :
    outcome (pure value : Attempt σ ε α) state = (.ok answer, later) ↔
      value = answer ∧ state = later := by
  show (Except.ok value, state) = (Except.ok answer, later) ↔ _
  simp

/-- An answer that is already there changes nothing. -/
theorem outcome_ofExcept_bind_eq_ok_iff
    {found : Except ε α} {next : α → Attempt σ ε β} {state later : σ} {answer : β} :
    outcome (ofExcept found >>= next) state = (.ok answer, later) ↔
      ∃ value, found = .ok value ∧ outcome (next value) state = (.ok answer, later) := by
  rw [outcome_bind, outcome_ofExcept]
  cases found <;> simp

/-- Wherever the attempt is made, it either fails and leaves the state as it was, or it gives an
answer and its whole effect is there. The effect relates the state before, the answer and the state
after. -/
def AllOrNothing (step : Attempt σ ε α) (effect : σ → α → σ → Prop) : Prop :=
  ∀ state,
    (∃ error, outcome step state = (.error error, state)) ∨
      ∃ answer later, outcome step state = (.ok answer, later) ∧ effect state answer later

theorem AllOrNothing.state_eq
    {step : Attempt σ ε α} {effect : σ → α → σ → Prop} (whole : AllOrNothing step effect)
    {state : σ} (failed : (outcome step state).1.isOk = false) :
    (outcome step state).2 = state := by
  rcases whole state with ⟨error, ended⟩ | ⟨answer, later, ended, _⟩
  · rw [ended]
  · rw [ended] at failed
    cases failed

/-- From a state both attempts succeed in either order. Each gives the same answer first as second,
and both orders end in the same state. -/
def Interchange (first : Attempt σ ε α) (second : Attempt σ ε β) (state : σ) : Prop :=
  ∃ answer other afterFirst afterSecond later,
    outcome first state = (.ok answer, afterFirst) ∧
      outcome second afterFirst = (.ok other, later) ∧
      outcome second state = (.ok other, afterSecond) ∧
      outcome first afterSecond = (.ok answer, later)

end Schemata.Attempt

namespace Schemata

variable {ε α β : Type}

/-- Two steps succeed together exactly if the first does and the second does with its answer. -/
theorem bind_eq_ok_iff
    {answer : Except ε α} {next : α → Except ε β} {result : β} :
    answer >>= next = .ok result ↔
      ∃ value, answer = .ok value ∧ next value = .ok result := by
  cases answer with
  | error error =>
      constructor
      · intro impossible
        cases impossible
      · rintro ⟨value, impossible, _⟩
        cases impossible
  | ok value =>
      constructor
      · intro success
        exact ⟨value, rfl, success⟩
      · rintro ⟨found, same, success⟩
        cases same
        exact success

/-- Two steps fail if the first does, or the second with the answer of the first. -/
theorem bind_eq_error_iff
    {answer : Except ε α} {next : α → Except ε β} {error : ε} :
    answer >>= next = .error error ↔
      answer = .error error ∨ ∃ value, answer = .ok value ∧ next value = .error error := by
  cases answer with
  | error other =>
      show Except.error other = .error error ↔ _
      simp
  | ok value =>
      show next value = .error error ↔ _
      simp

/-- A check in front of a step passes without an answer of its own. -/
theorem check_bind_eq_ok_iff
    {check : Except ε Unit} {next : Unit → Except ε β} {result : β} :
    check >>= next = .ok result ↔ check = .ok () ∧ next () = .ok result := by
  rw [bind_eq_ok_iff]
  constructor
  · rintro ⟨⟨⟩, passed, success⟩
    exact ⟨passed, success⟩
  · rintro ⟨passed, success⟩
    exact ⟨(), passed, success⟩

theorem exists_of_isOk {answer : Except ε α} (isOk : answer.isOk = true) :
    ∃ value, answer = .ok value := by
  cases answer with
  | ok value => exact ⟨value, rfl⟩
  | error error => cases isOk

theorem discard_eq_ok_iff {answer : Except ε α} :
    discard answer = .ok () ↔ ∃ value, answer = .ok value := by
  cases answer with
  | error error =>
      constructor
      · intro impossible
        cases impossible
      · rintro ⟨value, impossible⟩
        cases impossible
  | ok value => exact ⟨fun _ => ⟨value, rfl⟩, fun _ => rfl⟩

@[simp]
theorem mapError_ok {δ : Type} (value : α) (change : ε → δ) :
    (Except.ok value : Except ε α).mapError change = .ok value :=
  rfl

@[simp]
theorem mapError_error {δ : Type} (error : ε) (change : ε → δ) :
    (Except.error error : Except ε α).mapError change = .error (change error) :=
  rfl

theorem mapError_eq_ok_iff
    {δ : Type} {answer : Except ε α} {change : ε → δ} {value : α} :
    answer.mapError change = .ok value ↔ answer = .ok value := by
  cases answer <;> simp

theorem mapError_eq_error_iff
    {δ : Type} {answer : Except ε α} {change : ε → δ} {fault : δ} :
    answer.mapError change = .error fault ↔ ∃ error, answer = .error error ∧ fault = change error := by
  cases answer <;> simp [eq_comm]

/-- Steps for the items of a list succeed together with an answer for each item. -/
theorem forall₂_of_mapM
    {step : α → Except ε β} {items : List α} {answers : List β}
    (success : items.mapM step = .ok answers) :
    List.Forall₂ (fun item answer => step item = .ok answer) items answers := by
  induction items generalizing answers with
  | nil =>
      cases success
      exact .nil
  | cons item rest hypothesis =>
      rw [List.mapM_cons] at success
      obtain ⟨answer, first, success⟩ := bind_eq_ok_iff.1 success
      obtain ⟨others, later, same⟩ := bind_eq_ok_iff.1 success
      cases same
      exact .cons first (hypothesis later)

theorem mapM_eq_ok_iff
    {step : α → Except ε β} {items : List α} {answers : List β} :
    items.mapM step = .ok answers ↔
      List.Forall₂ (fun item answer => step item = .ok answer) items answers := by
  refine ⟨forall₂_of_mapM, fun each => ?_⟩
  induction each with
  | nil => rfl
  | cons first _ hypothesis =>
      rw [List.mapM_cons, first, hypothesis]
      rfl

theorem exists_mapM_eq_ok_iff {step : α → Except ε β} {items : List α} :
    (∃ answers, items.mapM step = .ok answers) ↔
      ∀ item ∈ items, ∃ answer, step item = .ok answer := by
  simp only [mapM_eq_ok_iff]
  induction items with
  | nil => exact ⟨fun _ _ listed => absurd listed List.not_mem_nil, fun _ => ⟨[], .nil⟩⟩
  | cons item rest hypothesis =>
      rw [List.forall_mem_cons, ← hypothesis]
      constructor
      · rintro ⟨_, _ | ⟨first, later⟩⟩
        exact ⟨⟨_, first⟩, _, later⟩
      · rintro ⟨⟨answer, first⟩, answers, later⟩
        exact ⟨answer :: answers, .cons first later⟩

/-- Of the steps for the items of a list the first one that fails is told. -/
theorem mapM_eq_error_iff
    {step : α → Except ε β} {items : List α} {error : ε} :
    items.mapM step = .error error ↔
      ∃ front item back,
        items = front ++ item :: back ∧ (∀ earlier ∈ front, ∃ answer, step earlier = .ok answer) ∧
          step item = .error error := by
  induction items with
  | nil => simp [pure, Except.pure]
  | cons first rest hypothesis =>
      rw [List.mapM_cons, bind_eq_error_iff]
      constructor
      · rintro (failed | ⟨answer, passed, failed⟩)
        · exact ⟨[], first, rest, rfl, by simp, failed⟩
        · have later : rest.mapM step = .error error := by
            rcases bind_eq_error_iff.1 failed with later | ⟨_, _, impossible⟩
            · exact later
            · cases impossible
          obtain ⟨front, item, back, rfl, before, failed⟩ := hypothesis.1 later
          exact ⟨first :: front, item, back, rfl,
            List.forall_mem_cons.2 ⟨⟨answer, passed⟩, before⟩, failed⟩
      · rintro ⟨front, item, back, whole, before, failed⟩
        cases front with
        | nil =>
            cases whole
            exact Or.inl failed
        | cons other front =>
            cases whole
            obtain ⟨⟨answer, passed⟩, before⟩ := List.forall_mem_cons.1 before
            have later := hypothesis.2 ⟨front, item, back, rfl, before, failed⟩
            exact Or.inr ⟨answer, passed, bind_eq_error_iff.2 (Or.inl later)⟩

/-- Steps one after the other end with the failure of the first one that fails. -/
theorem foldlM_eq_error_iff
    {step : α → β → Except ε α} {state : α} {items : List β} {error : ε} :
    items.foldlM step state = .error error ↔
      ∃ front item back between,
        items = front ++ item :: back ∧ front.foldlM step state = .ok between ∧
          step between item = .error error := by
  constructor
  · intro failed
    induction items generalizing state with
    | nil => cases failed
    | cons first rest hypothesis =>
        rw [List.foldlM_cons, bind_eq_error_iff] at failed
        rcases failed with failed | ⟨next, passed, failed⟩
        · exact ⟨[], first, rest, state, rfl, rfl, failed⟩
        · obtain ⟨front, item, back, between, rfl, before, failed⟩ := hypothesis failed
          refine ⟨first :: front, item, back, between, rfl, ?_, failed⟩
          rw [List.foldlM_cons, passed]
          exact before
  · rintro ⟨front, item, back, between, rfl, before, failed⟩
    rw [List.foldlM_append, before]
    show (item :: back).foldlM step between = .error error
    rw [List.foldlM_cons]
    exact bind_eq_error_iff.2 (Or.inl failed)

/-- What is written item by item is read item by item. -/
theorem mapM_map_eq_ok
    {write : α → β} {read : β → Except ε α} (back : ∀ item, read (write item) = .ok item)
    (items : List α) :
    (items.map write).mapM read = .ok items := by
  induction items with
  | nil => rfl
  | cons item rest hypothesis =>
      rw [List.map_cons, List.mapM_cons, back, hypothesis]
      rfl

/-- What every step keeps is kept by all of them, one after the other. -/
theorem foldlM_invariant
    {holds : α → Prop} {step : α → β → Except ε α}
    (kept : ∀ state item later, holds state → step state item = .ok later → holds later)
    {state later : α} (atStart : holds state) {items : List β}
    (success : items.foldlM step state = .ok later) :
    holds later := by
  induction items generalizing state with
  | nil =>
      cases success
      exact atStart
  | cons item rest hypothesis =>
      rw [List.foldlM_cons] at success
      obtain ⟨between, first, success⟩ := bind_eq_ok_iff.1 success
      exact hypothesis (kept state item between atStart first) success

end Schemata
