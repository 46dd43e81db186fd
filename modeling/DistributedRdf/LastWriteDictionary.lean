import Mathlib.Data.List.Induction

namespace DistributedRdf.LastWrite

open List

/-!
# Dictionaries filled by a sequence of assignments

The last assignment to a key decides its value.  The order of the assignments
is immaterial as soon as no key is assigned two values.
-/

abbrev Dictionary (κ : Type u) (ν : Type v) := κ → Option ν

def empty : Dictionary κ ν := fun _ => none

def assign
    [DecidableEq κ]
    (dictionary : Dictionary κ ν)
    (entry : κ × ν) : Dictionary κ ν :=
  fun key => if key = entry.1 then some entry.2 else dictionary key

def fill [DecidableEq κ] (entries : List (κ × ν)) : Dictionary κ ν :=
  entries.foldl assign empty

/-- The entries assign the value to the key and never touch it afterwards. -/
def LastEntry (entries : List (κ × ν)) (key : κ) (value : ν) : Prop :=
  ∃ earlier later, entries = earlier ++ (key, value) :: later ∧
    ∀ entry, entry ∈ later → entry.1 ≠ key

/-- No key is assigned two values. -/
def UniqueValues (entries : List (κ × ν)) : Prop :=
  ∀ key first second, (key, first) ∈ entries → (key, second) ∈ entries →
    first = second

variable
  {entries : List (κ × ν)}
  {key : κ}
  {value : ν}

theorem lastEntry_concat_iff
    {entry : κ × ν} :
    LastEntry (entries ++ [entry]) key value ↔
      entry = (key, value) ∨ entry.1 ≠ key ∧ LastEntry entries key value := by
  constructor
  · intro last
    rcases last with ⟨earlier, later, split, untouched⟩
    rcases eq_nil_or_concat later with rfl | ⟨rest, final, rfl⟩
    · have ends := append_inj' split rfl
      exact .inl (singleton_inj.mp ends.2)
    · have ends :
          entries ++ [entry] =
            (earlier ++ (key, value) :: rest) ++ [final] := by
        simpa using split
      have parts := append_inj' ends rfl
      have sameEntry : entry = final := singleton_inj.mp parts.2
      refine .inr ⟨?_, earlier, rest, parts.1, ?_⟩
      · exact untouched entry (by simp [sameEntry])
      · intro other member
        exact untouched other (by simp [member])
  · intro cases
    rcases cases with rfl | ⟨different, earlier, later, rfl, untouched⟩
    · exact ⟨entries, [], rfl, by simp⟩
    · refine ⟨earlier, later ++ [entry], by simp, ?_⟩
      intro other member
      rcases mem_append.mp member with inLater | isLast
      · exact untouched other inLater
      · rwa [mem_singleton.mp isLast]

theorem LastEntry.mem
    (last : LastEntry entries key value) :
    (key, value) ∈ entries := by
  rcases last with ⟨earlier, later, rfl, _⟩
  simp

variable [DecidableEq κ]

@[simp] theorem fill_nil : fill ([] : List (κ × ν)) = empty := rfl

@[simp] theorem fill_concat
    (entries : List (κ × ν))
    (entry : κ × ν) :
    fill (entries ++ [entry]) = assign (fill entries) entry := by
  simp [fill]

/-- A lookup returns the value of the key's last entry. -/
theorem fill_eq_some_iff :
    fill entries key = some value ↔ LastEntry entries key value := by
  induction entries using reverseRecOn with
  | nil => simp [empty, LastEntry]
  | append_singleton rest entry hypothesis =>
      rw [fill_concat, lastEntry_concat_iff, ← hypothesis]
      by_cases sameKey : key = entry.1
      · subst key
        simp [assign, Prod.ext_iff]
      · have different : entry.1 ≠ key := fun same => sameKey same.symm
        simp [assign, sameKey, different, Prod.ext_iff]

theorem exists_fill_eq_some
    (member : (key, value) ∈ entries) :
    ∃ found, fill entries key = some found := by
  induction entries using reverseRecOn with
  | nil => simp at member
  | append_singleton rest entry hypothesis =>
      rw [fill_concat]
      by_cases sameKey : key = entry.1
      · exact ⟨entry.2, by simp [assign, sameKey]⟩
      · have inRest : (key, value) ∈ rest := by
          rcases mem_append.mp member with inRest | isLast
          · exact inRest
          · have same := mem_singleton.mp isLast
            exact absurd (congrArg Prod.fst same) sameKey
        simpa [assign, sameKey] using hypothesis inRest

/-- Without conflicting entries a lookup is a membership test. -/
theorem fill_eq_some_iff_mem
    (unique : UniqueValues entries) :
    fill entries key = some value ↔ (key, value) ∈ entries := by
  constructor
  · intro found
    exact (fill_eq_some_iff.mp found).mem
  · intro member
    obtain ⟨other, found⟩ := exists_fill_eq_some member
    have same : other = value :=
      unique key other value (fill_eq_some_iff.mp found).mem member
    rwa [← same]

/-- Without conflicting entries only the set of entries matters. -/
theorem fill_congr
    {entries others : List (κ × ν)}
    (unique : UniqueValues entries)
    (sameEntries : ∀ entry, entry ∈ others ↔ entry ∈ entries) :
    fill others = fill entries := by
  have othersUnique : UniqueValues others := by
    intro key first second firstMember secondMember
    exact unique key first second
      ((sameEntries _).mp firstMember) ((sameEntries _).mp secondMember)
  funext key
  apply Option.ext
  intro value
  rw [fill_eq_some_iff_mem othersUnique, fill_eq_some_iff_mem unique]
  exact sameEntries _

end DistributedRdf.LastWrite
