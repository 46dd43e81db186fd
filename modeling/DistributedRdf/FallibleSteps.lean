import Mathlib.Tactic.Common

namespace DistributedRdf

open List

/-!
# Steps that may fail
-/

/-- A step succeeds when the steps before it do. -/
theorem bind_eq_ok
    {ε α β : Type}
    {first : Except ε α}
    {next : α → Except ε β}
    {result : β} :
    (first >>= next) = .ok result ↔
      ∃ value, first = .ok value ∧ next value = .ok result := by
  cases first with
  | error exception =>
      constructor
      · exact fun same => nomatch same
      · exact fun ⟨_, same, _⟩ => nomatch same
  | ok value =>
      constructor
      · exact fun returned => ⟨value, rfl, returned⟩
      · rintro ⟨_, same, returned⟩
        cases same
        exact returned

theorem map_eq_ok
    {ε α β : Type}
    {step : Except ε α}
    {next : α → β}
    {result : β} :
    next <$> step = .ok result ↔
      ∃ value, step = .ok value ∧ next value = result := by
  cases step with
  | error exception =>
      constructor
      · exact fun same => nomatch same
      · exact fun ⟨_, same, _⟩ => nomatch same
  | ok value =>
      constructor
      · exact fun returned => ⟨value, rfl, Except.ok.inj returned⟩
      · rintro ⟨_, same, returned⟩
        cases same
        exact congrArg Except.ok returned

/-- What a list of steps gives comes from one of them. -/
theorem exists_of_mem_mapM
    {ε α β : Type}
    {step : α → Except ε β}
    {inputs : List α}
    {results : List β}
    {result : β}
    (succeeded : inputs.mapM step = .ok results)
    (isResult : result ∈ results) :
    ∃ input ∈ inputs, step input = .ok result := by
  induction inputs generalizing results with
  | nil =>
      cases succeeded
      exact nomatch isResult
  | cons input rest hypothesis =>
      rw [mapM_cons] at succeeded
      obtain ⟨first, firstGiven, succeeded⟩ := bind_eq_ok.mp succeeded
      obtain ⟨others, othersGiven, succeeded⟩ := bind_eq_ok.mp succeeded
      cases succeeded
      rcases mem_cons.mp isResult with isFirst | isOther
      · rw [isFirst]
        exact ⟨input, mem_cons_self, firstGiven⟩
      · obtain ⟨later, isLater, given⟩ :=
          hypothesis othersGiven isOther
        exact ⟨later, mem_cons_of_mem _ isLater, given⟩

/-- A loop ends when each of its steps does, whatever the state before it. -/
theorem exists_foldlM_eq_ok_iff
    {ε α σ : Type}
    {step : σ → α → Except ε σ}
    {succeeds : α → Prop}
    (given : ∀ state item,
      (∃ next, step state item = .ok next) ↔ succeeds item)
    {items : List α}
    {start : σ} :
    (∃ result, items.foldlM step start = .ok result) ↔
      ∀ item ∈ items, succeeds item := by
  induction items generalizing start with
  | nil => exact iff_of_true ⟨start, rfl⟩ nofun
  | cons item rest hypothesis =>
      simp only [foldlM_cons, bind_eq_ok, forall_mem_cons]
      constructor
      · rintro ⟨result, next, stepped, others⟩
        exact ⟨(given start item).mp ⟨next, stepped⟩,
          hypothesis.mp ⟨result, others⟩⟩
      · rintro ⟨first, others⟩
        obtain ⟨next, stepped⟩ := (given start item).mpr first
        obtain ⟨result, ended⟩ := (@hypothesis next).mpr others
        exact ⟨result, next, stepped, ended⟩

/-- A list of steps gives one result for each. -/
theorem mapM_eq_some_iff
    {α β : Type}
    {step : α → Option β}
    {inputs : List α}
    {results : List β} :
    inputs.mapM step = some results ↔ inputs.map step = results.map some := by
  induction inputs generalizing results with
  | nil =>
      cases results with
      | nil => exact iff_of_true rfl rfl
      | cons result others => exact iff_of_false nofun nofun
  | cons input rest hypothesis =>
      simp only [mapM_cons, Option.bind_eq_bind, Option.pure_def,
        Option.bind_eq_some_iff, Option.some.injEq, map_cons]
      constructor
      · rintro ⟨result, given, others, othersGiven, rfl⟩
        rw [given, hypothesis.mp othersGiven, map_cons]
      · intro given
        cases results with
        | nil => exact nomatch given
        | cons result others =>
            obtain ⟨given, othersGiven⟩ := cons.inj given
            exact ⟨result, given, others, hypothesis.mpr othersGiven,
              rfl⟩

/-- Nothing is missing. -/
theorem mapM_eq_some_map
    {α β : Type}
    {step : α → Option β}
    {result : α → β}
    {inputs : List α}
    (present : ∀ input ∈ inputs, step input = some (result input)) :
    inputs.mapM step = some (inputs.map result) := by
  rw [mapM_eq_some_iff, map_map]
  exact map_congr_left present

end DistributedRdf
