import Mathlib.Order.Bounds.Basic

namespace DistributedRdf.EditDistance

/-!
# Edit distance

The edit distance of two sequences is the least number of single insertions,
deletions and substitutions that turn one into the other.  An alignment puts
the edits in the order of the sequence, which is the form that a table over
pairs of prefixes computes with.
-/

variable {α : Type u}

/-- One insertion, deletion or substitution. -/
inductive Edit : List α → List α → Prop where
  | insert (item : α) (xs : List α) : Edit xs (item :: xs)
  | delete (item : α) (xs : List α) : Edit (item :: xs) xs
  | substitute (old new : α) (xs : List α) : Edit (old :: xs) (new :: xs)
  | later (item : α) : Edit xs ys → Edit (item :: xs) (item :: ys)

/-- A number of edits, one after the other. -/
inductive Edits : Nat → List α → List α → Prop where
  | none (xs : List α) : Edits 0 xs xs
  | one : Edits count xs ys → Edit ys zs → Edits (count + 1) xs zs

/-- Edits in the order of the sequence, with their number. -/
inductive Alignment : Nat → List α → List α → Prop where
  | done : Alignment 0 [] []
  | delete (item : α) :
      Alignment count xs ys → Alignment (count + 1) (item :: xs) ys
  | insert (item : α) :
      Alignment count xs ys → Alignment (count + 1) xs (item :: ys)
  | keep (item : α) :
      Alignment count xs ys → Alignment count (item :: xs) (item :: ys)
  | substitute (old new : α) :
      Alignment count xs ys → Alignment (count + 1) (old :: xs) (new :: ys)

/-- The least number of edits from the first sequence to the second. -/
def IsEditDistance (xs ys : List α) (distance : Nat) : Prop :=
  IsLeast {count | Edits count xs ys} distance

/-!
## Edits and alignments
-/

variable {xs ys : List α}

theorem Edits.later
    (item : α)
    (edits : Edits count xs ys) :
    Edits count (item :: xs) (item :: ys) := by
  induction edits with
  | none => exact .none _
  | one _ edit hypothesis => exact .one hypothesis (.later item edit)

theorem Alignment.edits
    (alignment : Alignment count xs ys) :
    Edits count xs ys := by
  induction alignment with
  | done => exact .none []
  | delete item _ hypothesis =>
      exact .one (hypothesis.later item) (.delete item _)
  | insert item _ hypothesis => exact .one hypothesis (.insert item _)
  | keep item _ hypothesis => exact hypothesis.later item
  | substitute old new _ hypothesis =>
      exact .one (hypothesis.later old) (.substitute old new _)

theorem Alignment.refl (xs : List α) : Alignment 0 xs xs := by
  induction xs with
  | nil => exact .done
  | cons item _ hypothesis => exact .keep item hypothesis

/-- A further edit makes an alignment at most one longer. -/
theorem Alignment.edit
    {xs ys zs : List α}
    (alignment : Alignment count xs ys)
    (edit : Edit ys zs) :
    ∃ total, total ≤ count + 1 ∧ Alignment total xs zs := by
  induction alignment generalizing zs with
  | done =>
      cases edit with
      | insert item => exact ⟨1, le_rfl, .insert item .done⟩
  | delete item _ hypothesis =>
      rcases hypothesis edit with ⟨total, bound, aligned⟩
      exact ⟨total + 1, by omega, .delete item aligned⟩
  | insert item aligned hypothesis =>
      cases edit with
      | insert other => exact ⟨_, le_rfl, .insert other (.insert item aligned)⟩
      | delete => exact ⟨_, by omega, aligned⟩
      | substitute _ new => exact ⟨_, by omega, .insert new aligned⟩
      | later _ rest =>
          rcases hypothesis rest with ⟨total, bound, alignedRest⟩
          exact ⟨total + 1, by omega, .insert item alignedRest⟩
  | keep item aligned hypothesis =>
      cases edit with
      | insert other => exact ⟨_, le_rfl, .insert other (.keep item aligned)⟩
      | delete => exact ⟨_, le_rfl, .delete item aligned⟩
      | substitute _ new => exact ⟨_, le_rfl, .substitute item new aligned⟩
      | later _ rest =>
          rcases hypothesis rest with ⟨total, bound, alignedRest⟩
          exact ⟨total, bound, .keep item alignedRest⟩
  | substitute old new aligned hypothesis =>
      cases edit with
      | insert other =>
          exact ⟨_, le_rfl, .insert other (.substitute old new aligned)⟩
      | delete => exact ⟨_, by omega, .delete old aligned⟩
      | substitute _ newer => exact ⟨_, by omega, .substitute old newer aligned⟩
      | later _ rest =>
          rcases hypothesis rest with ⟨total, bound, alignedRest⟩
          exact ⟨total + 1, by omega, .substitute old new alignedRest⟩

theorem Edits.alignment
    (edits : Edits count xs ys) :
    ∃ total, total ≤ count ∧ Alignment total xs ys := by
  induction edits with
  | none => exact ⟨0, le_rfl, .refl _⟩
  | one _ edit hypothesis =>
      rcases hypothesis with ⟨total, bound, aligned⟩
      rcases aligned.edit edit with ⟨extended, extendedBound, result⟩
      exact ⟨extended, by omega, result⟩

variable {distance : Nat}

/-- The distance is the length of the shortest alignment. -/
theorem isEditDistance_iff :
    IsEditDistance xs ys distance ↔
      Alignment distance xs ys ∧
        ∀ count, Alignment count xs ys → distance ≤ count := by
  constructor
  · rintro ⟨edits, least⟩
    rcases edits.alignment with ⟨total, bound, aligned⟩
    have same : total = distance := le_antisymm bound (least aligned.edits)
    exact ⟨same ▸ aligned, fun count other => least other.edits⟩
  · rintro ⟨aligned, least⟩
    refine ⟨aligned.edits, ?_⟩
    intro count edits
    rcases edits.alignment with ⟨total, bound, other⟩
    exact (least total other).trans bound

theorem IsEditDistance.unique
    (first : IsEditDistance xs ys n)
    (second : IsEditDistance xs ys m) :
    n = m :=
  IsLeast.unique first second

/-!
## Symmetry
-/

theorem Alignment.symm
    (alignment : Alignment count xs ys) :
    Alignment count ys xs := by
  induction alignment with
  | done => exact .done
  | delete item _ hypothesis => exact .insert item hypothesis
  | insert item _ hypothesis => exact .delete item hypothesis
  | keep item _ hypothesis => exact .keep item hypothesis
  | substitute old new _ hypothesis => exact .substitute new old hypothesis

theorem IsEditDistance.symm
    (distance : IsEditDistance xs ys n) :
    IsEditDistance ys xs n := by
  rw [isEditDistance_iff] at distance ⊢
  exact ⟨distance.1.symm, fun count aligned => distance.2 count aligned.symm⟩

/-!
## Reversal
-/

theorem Alignment.append
    {xs ys us vs : List α}
    (front : Alignment n xs ys)
    (back : Alignment m us vs) :
    Alignment (n + m) (xs ++ us) (ys ++ vs) := by
  induction front with
  | done => simpa using back
  | delete item _ hypothesis =>
      rw [Nat.add_right_comm]
      exact .delete item hypothesis
  | insert item _ hypothesis =>
      rw [Nat.add_right_comm]
      exact .insert item hypothesis
  | keep item _ hypothesis => exact .keep item hypothesis
  | substitute old new _ hypothesis =>
      rw [Nat.add_right_comm]
      exact .substitute old new hypothesis

theorem Alignment.reverse
    (alignment : Alignment count xs ys) :
    Alignment count xs.reverse ys.reverse := by
  induction alignment with
  | done => exact .done
  | delete item _ hypothesis =>
      simpa using hypothesis.append (.delete item .done)
  | insert item _ hypothesis =>
      simpa using hypothesis.append (.insert item .done)
  | keep item _ hypothesis => simpa using hypothesis.append (.keep item .done)
  | substitute old new _ hypothesis =>
      simpa using hypothesis.append (.substitute old new .done)

/-- Whether a table is filled by prefixes or by suffixes does not matter. -/
theorem isEditDistance_reverse :
    IsEditDistance xs.reverse ys.reverse distance ↔
      IsEditDistance xs ys distance := by
  have reversed
      {count : Nat} :
      Alignment count xs.reverse ys.reverse ↔ Alignment count xs ys :=
    ⟨fun aligned => by simpa using aligned.reverse, Alignment.reverse⟩
  simp only [isEditDistance_iff, reversed]

/-!
## The recurrence of the table
-/

theorem alignment_nil_left :
    Alignment count [] ys ↔ count = ys.length := by
  constructor
  · intro aligned
    induction ys generalizing count with
    | nil =>
        cases aligned
        rfl
    | cons _ rest hypothesis =>
        cases aligned with
        | insert _ shorter => simp [hypothesis shorter]
  · rintro rfl
    induction ys with
    | nil => exact .done
    | cons item _ hypothesis => exact .insert item hypothesis

theorem isEditDistance_nil_left (ys : List α) :
    IsEditDistance [] ys ys.length := by
  simp only [isEditDistance_iff, alignment_nil_left, true_and]
  rintro _ rfl
  exact le_rfl

theorem isEditDistance_nil_right (xs : List α) :
    IsEditDistance xs [] xs.length :=
  (isEditDistance_nil_left xs).symm

/-- The three ways to handle the first items, of which the cheapest counts. -/
theorem IsEditDistance.cons
    [DecidableEq α]
    {x y : α}
    (deleted : IsEditDistance xs (y :: ys) del)
    (inserted : IsEditDistance (x :: xs) ys add)
    (aligned : IsEditDistance xs ys sub) :
    IsEditDistance (x :: xs) (y :: ys)
      (min (del + 1) (min (add + 1) (sub + if x ≠ y then 1 else 0))) := by
  rw [isEditDistance_iff] at deleted inserted aligned ⊢
  have paired :
      Alignment (sub + if x ≠ y then 1 else 0) (x :: xs) (y :: ys) := by
    by_cases same : x = y
    · subst same
      simpa using Alignment.keep x aligned.1
    · simpa [same] using Alignment.substitute x y aligned.1
  constructor
  · exact min_rec' (Alignment · (x :: xs) (y :: ys))
      (.delete x deleted.1)
      (min_rec' (Alignment · (x :: xs) (y :: ys))
        (.insert y inserted.1) paired)
  · intro count alignment
    cases alignment with
    | delete _ shorter =>
        have bound := deleted.2 _ shorter
        omega
    | insert _ shorter =>
        have bound := inserted.2 _ shorter
        omega
    | keep _ shorter =>
        have bound := aligned.2 _ shorter
        simp only [ne_eq, not_true_eq_false, if_false]
        omega
    | substitute _ _ shorter =>
        have bound := aligned.2 _ shorter
        split <;> omega

end DistributedRdf.EditDistance
