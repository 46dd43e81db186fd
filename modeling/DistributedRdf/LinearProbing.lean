import Mathlib.Data.Fintype.Card

namespace DistributedRdf.Probing

open Option Fintype

/-!
# Linear probing

A table keeps every item at the first free key from the item's own key on.  A
search goes from key to key until it meets the item or a free key.  On finitely
many keys it stops within their number or goes round for ever.
-/

variable {κ : Type u} {α : Type v}

/-- The search stops at a key after the given number of occupied ones. -/
inductive StopsIn (next : κ → κ) (table : κ → Option α) (item : α) :
    Nat → κ → κ → Prop where
  | free
      (isFree : table key = none) :
      StopsIn next table item 0 key key
  | held
      (holds : table key = some item) :
      StopsIn next table item 0 key key
  | later
      (occupied : table key = some other)
      (different : other ≠ item)
      (rest : StopsIn next table item steps (next key) found) :
      StopsIn next table item (steps + 1) key found

def StopsAt
    (next : κ → κ)
    (table : κ → Option α)
    (item : α)
    (key found : κ) : Prop :=
  ∃ steps, StopsIn next table item steps key found

section Search

variable {next : κ → κ} {table : κ → Option α} {item : α}

theorem StopsIn.found_free_or_held
    (stops : StopsIn next table item steps key found) :
    table found = none ∨ table found = some item := by
  induction stops with
  | free isFree => exact .inl isFree
  | held holds => exact .inr holds
  | later _ _ _ hypothesis => exact hypothesis

theorem StopsIn.unique
    {steps otherSteps : Nat}
    {key found otherFound : κ}
    (stops : StopsIn next table item steps key found)
    (otherStops : StopsIn next table item otherSteps key otherFound) :
    steps = otherSteps ∧ found = otherFound := by
  induction stops generalizing otherSteps with
  | free isFree =>
      cases otherStops with
      | free => exact ⟨rfl, rfl⟩
      | held => exact ⟨rfl, rfl⟩
      | later occupied => simp [isFree] at occupied
  | held holds =>
      cases otherStops with
      | free => exact ⟨rfl, rfl⟩
      | held => exact ⟨rfl, rfl⟩
      | later occupied different =>
          rw [holds, some.injEq] at occupied
          exact absurd occupied.symm different
  | later occupied different _ hypothesis =>
      cases otherStops with
      | free isFree => simp [isFree] at occupied
      | held holds =>
          rw [holds, some.injEq] at occupied
          exact absurd occupied.symm different
      | later _ _ rest =>
          have same := hypothesis rest
          exact ⟨congrArg Nat.succ same.1, same.2⟩

theorem StopsAt.unique
    {key found otherFound : κ}
    (stops : StopsAt next table item key found)
    (otherStops : StopsAt next table item key otherFound) :
    found = otherFound := by
  rcases stops with ⟨steps, stops⟩
  rcases otherStops with ⟨otherSteps, otherStops⟩
  exact (stops.unique otherStops).2

variable {key found : κ}

theorem StopsIn.after
    {steps passed : Nat}
    (stops : StopsIn next table item steps key found)
    (bound : passed ≤ steps) :
    StopsIn next table item (steps - passed) (next^[passed] key) found := by
  induction passed generalizing steps key with
  | zero => exact stops
  | succ passed hypothesis =>
      cases stops with
      | free | held => exact absurd bound (by omega)
      | later _ _ rest =>
          rw [Nat.add_sub_add_right]
          exact hypothesis rest (by omega)

/-- No key is visited twice before the search stops. -/
theorem StopsIn.lt_card
    [Fintype κ]
    {steps : Nat}
    (stops : StopsIn next table item steps key found) :
    steps < card κ := by
  let visited : Fin (steps + 1) → κ := fun passed => next^[passed] key
  have injective : Function.Injective visited := by
    intro first second same
    have fromFirst := stops.after (Nat.le_of_lt_succ first.isLt)
    have fromSecond := stops.after (Nat.le_of_lt_succ second.isLt)
    have sameKey : next^[first] key = next^[second] key := same
    rw [sameKey] at fromFirst
    have sameSteps := (fromFirst.unique fromSecond).1
    apply Fin.ext
    omega
  have count := card_le_of_injective visited injective
  rw [card_fin] at count
  exact count

/-!
## The search as a bounded loop
-/

/-- The loop, for at most the given number of keys. -/
def probe
    [DecidableEq α]
    (next : κ → κ)
    (table : κ → Option α)
    (item : α) :
    Nat → κ → Option κ
  | 0, _ => none
  | fuel + 1, key =>
      match table key with
      | none => some key
      | some stored =>
          if stored = item then some key
          else probe next table item fuel (next key)

theorem probe_eq_some_iff
    [DecidableEq α]
    {fuel : Nat} :
    probe next table item fuel key = some found ↔
      ∃ steps, steps < fuel ∧ StopsIn next table item steps key found := by
  induction fuel generalizing key with
  | zero => simp [probe]
  | succ fuel hypothesis =>
      constructor
      · intro probed
        unfold probe at probed
        split at probed
        · rename_i isFree
          obtain rfl := some.inj probed
          exact ⟨0, Nat.succ_pos fuel, .free isFree⟩
        · rename_i stored occupied
          split at probed
          · rename_i isItem
            obtain rfl := some.inj probed
            exact ⟨0, Nat.succ_pos fuel, .held (isItem ▸ occupied)⟩
          · rename_i different
            rcases hypothesis.mp probed with ⟨steps, bound, stops⟩
            exact ⟨steps + 1, Nat.succ_lt_succ bound,
              .later occupied different stops⟩
      · rintro ⟨steps, bound, stops⟩
        unfold probe
        cases stops with
        | free isFree => rw [isFree]
        | held holds =>
            rw [holds]
            exact if_pos rfl
        | later occupied different rest =>
            rw [occupied]
            exact (if_neg different).trans
              (hypothesis.mpr ⟨_, Nat.lt_of_succ_lt_succ bound, rest⟩)

/-- As many rounds as there are keys decide whether the search ever stops. -/
theorem probe_card_eq_some_iff
    [DecidableEq α]
    [Fintype κ] :
    probe next table item (card κ) key = some found ↔
      StopsAt next table item key found := by
  rw [probe_eq_some_iff]
  constructor
  · rintro ⟨steps, _, stops⟩
    exact ⟨steps, stops⟩
  · rintro ⟨steps, stops⟩
    exact ⟨steps, stops.lt_card, stops⟩

end Search

end DistributedRdf.Probing
