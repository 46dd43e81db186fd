import Mathlib

namespace DistributedRdf.AssociationLists

open List Option

/-!
# Dictionaries that are filled in a loop

Values are inserted under the keys of a list, under the keys of the items of a
list, or under the keys of another dictionary, where they are combined with the
values that are there.  The keys of a dictionary divide the items among them.
-/

variable
  {κ : Type u}
  {ν : Type v}
  [DecidableEq κ]

abbrev Dict (κ : Type u) (ν : Type v) := AList fun _ : κ => ν

/-- The value is combined with the one that the key has. -/
def insertWith
    (combine : ν → ν → ν)
    (dictionary : Dict κ ν)
    (key : κ)
    (value : ν) : Dict κ ν :=
  match dictionary.lookup key with
  | none => dictionary.insert key value
  | some old => dictionary.insert key (combine old value)

theorem lookup_insertWith
    (combine : ν → ν → ν)
    (dictionary : Dict κ ν)
    (key other : κ)
    (value : ν) :
    (insertWith combine dictionary key value).lookup other =
      if other = key then
        merge combine (dictionary.lookup key) (some value)
      else dictionary.lookup other := by
  rw [insertWith]
  by_cases same : other = key
  · subst same
    rw [if_pos rfl]
    cases found : dictionary.lookup other with
    | none | some _ => exact AList.lookup_insert _
  · rw [if_neg same]
    cases found : dictionary.lookup key with
    | none | some _ => exact AList.lookup_insert_ne same

/-- Every key of the list gets its value, the other keys keep theirs. -/
theorem lookup_foldl_insert
    (value : κ → ν)
    (keys : List κ)
    (dictionary : Dict κ ν)
    (key : κ) :
    (keys.foldl (fun dictionary key => dictionary.insert key (value key))
        dictionary).lookup key =
      if key ∈ keys then some (value key) else dictionary.lookup key := by
  induction keys generalizing dictionary with
  | nil => simp
  | cons first rest hypothesis =>
      rw [foldl_cons, hypothesis]
      by_cases inRest : key ∈ rest
      · simp [inRest]
      · by_cases isFirst : key = first
        · subst isFirst
          simp [inRest]
        · simp [inRest, isFirst]

/-- A list that a dictionary keeps only if it is not empty -/
def listed (values : List ν) : Option (List ν) :=
  if values = [] then none else some values

variable {Item : Type w}

/-- The values of the items are collected under the keys of the items. -/
theorem lookup_foldl_insertWith
    (keyOf : Item → κ)
    (valueOf : Item → ν)
    (items : List Item)
    (dictionary : Dict κ (List ν))
    (key : κ) :
    (items.foldl
        (fun dictionary item =>
          insertWith (· ++ ·) dictionary (keyOf item) [valueOf item])
        dictionary).lookup key =
      merge (· ++ ·) (dictionary.lookup key)
        (listed ((items.filter (keyOf · = key)).map valueOf)) := by
  induction items generalizing dictionary with
  | nil => simp [listed]
  | cons first rest hypothesis =>
      rw [foldl_cons, hypothesis, lookup_insertWith]
      by_cases same : key = keyOf first
      · subst same
        rw [if_pos rfl, filter_cons_of_pos (by simp), map_cons]
        cases found : dictionary.lookup (keyOf first) with
        | none | some _ =>
            by_cases last :
                (rest.filter (keyOf · = keyOf first)).map valueOf = []
            · simp [listed, last]
            · simp [listed, last]
      · rw [if_neg same, filter_cons_of_neg (by simp [Ne.symm same])]

/-- Another dictionary is added to a dictionary entry by entry. -/
def addAll
    (combine : ν → ν → ν)
    (dictionary added : Dict κ ν) : Dict κ ν :=
  added.entries.foldl
    (fun dictionary entry =>
      insertWith combine dictionary entry.1 entry.2)
    dictionary

theorem lookup_addAll
    (combine : ν → ν → ν)
    (dictionary added : Dict κ ν)
    (key : κ) :
    (addAll combine dictionary added).lookup key =
      merge combine (dictionary.lookup key) (added.lookup key) := by
  obtain ⟨entries, distinct⟩ := added
  unfold addAll AList.lookup
  induction entries generalizing dictionary with
  | nil => simp
  | cons entry rest hypothesis =>
      obtain ⟨absent, distinctRest⟩ := nodupKeys_cons.mp distinct
      refine (hypothesis _ distinctRest).trans ?_
      change merge combine
        ((insertWith combine dictionary entry.1 entry.2).lookup key)
          (rest.dlookup key) = _
      rw [lookup_insertWith]
      by_cases same : key = entry.1
      · subst same
        have notLater : rest.dlookup entry.1 = none :=
          dlookup_eq_none.mpr absent
        rw [if_pos rfl, notLater, merge_none_right, dlookup_cons_eq]
        rfl
      · rw [if_neg same, dlookup_cons_ne _ _ same]
        rfl

/-!
## The items of a key
-/

variable {keys : List κ}

theorem sum_ite_eq
    {key : κ}
    (distinct : keys.Nodup)
    (member : key ∈ keys) :
    (keys.map fun other => if key = other then 1 else 0).sum = 1 := by
  induction keys with
  | nil => exact absurd member not_mem_nil
  | cons first rest hypothesis =>
      obtain ⟨absent, distinctRest⟩ := nodup_cons.mp distinct
      rw [map_cons, sum_cons]
      rcases mem_cons.mp member with rfl | inRest
      · have noOther :
            ∀ count ∈ rest.map fun other => if key = other then 1 else 0,
              count = 0 := by
          intro count isCount
          obtain ⟨other, isOther, rfl⟩ := mem_map.mp isCount
          refine if_neg ?_
          rintro rfl
          exact absent isOther
        rw [sum_eq_zero noOther, if_pos rfl, Nat.add_zero]
      · have different : key ≠ first := by
          rintro rfl
          exact absent inRest
        rw [if_neg different, Nat.zero_add]
        exact hypothesis distinctRest inRest

/-- The items are counted once if they are counted key by key. -/
theorem sum_countP
    (distinct : keys.Nodup)
    (keyOf : Item → κ)
    {items : List Item}
    (known : ∀ item ∈ items, keyOf item ∈ keys) :
    (keys.map fun key => items.countP (keyOf · = key)).sum = items.length := by
  induction items with
  | nil => simp
  | cons item rest hypothesis =>
      have inRest := hypothesis fun other member =>
        known other (mem_cons_of_mem item member)
      simp only [countP_cons, decide_eq_true_eq]
      rw [sum_map_add, inRest,
        sum_ite_eq distinct (known item mem_cons_self), length_cons]

end DistributedRdf.AssociationLists
