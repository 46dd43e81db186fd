import Mathlib.Data.List.Nodup

namespace DistributedRdf.Java

open List

/-!
# Maps whose values know their keys

A `HashMap` that keeps each value under a key computed from the value is the
list of its values, no two of them with the same key.
-/

structure KeyedMap {α : Type u} {κ : Type v} (key : α → κ) where
  values : List α
  distinct : (values.map key).Nodup

namespace KeyedMap

variable
  {α : Type u}
  {κ : Type v}
  {key : α → κ}

instance : Membership α (KeyedMap key) where
  mem map value := value ∈ map.values

instance [DecidableEq α] (value : α) (map : KeyedMap key) :
    Decidable (value ∈ map) :=
  inferInstanceAs (Decidable (value ∈ map.values))

def empty : KeyedMap key where
  values := []
  distinct := nodup_nil

@[simp] theorem not_mem_empty (value : α) :
    value ∉ (empty : KeyedMap key) :=
  not_mem_nil

variable {map : KeyedMap key}

@[simp] theorem mem_values
    {value : α} :
    value ∈ map.values ↔ value ∈ map :=
  Iff.rfl

/-- No two values have the same key. -/
theorem eq_of_key_eq
    {first second : α}
    (firstMember : first ∈ map)
    (secondMember : second ∈ map)
    (same : key first = key second) :
    first = second :=
  inj_on_of_nodup_map map.distinct firstMember secondMember same

section Changes

variable [DecidableEq κ]

def remove (map : KeyedMap key) (removed : κ) : KeyedMap key where
  values := map.values.filter (key · ≠ removed)
  distinct := map.distinct.sublist (filter_sublist.map key)

variable {map : KeyedMap key}

@[simp] theorem mem_remove
    {removed : κ}
    {value : α} :
    value ∈ map.remove removed ↔ value ∈ map ∧ key value ≠ removed := by
  change value ∈ map.values.filter _ ↔ value ∈ map.values ∧ _
  rw [mem_filter, decide_eq_true_eq]

/-- A value is the one that is removed, or remains. -/
theorem mem_iff_of_mem
    {removed value : α}
    (isMember : removed ∈ map) :
    value ∈ map ↔ value = removed ∨ value ∈ map.remove (key removed) := by
  rw [mem_remove]
  constructor
  · intro member
    by_cases same : key value = key removed
    · exact .inl (eq_of_key_eq member isMember same)
    · exact .inr ⟨member, same⟩
  · rintro (rfl | ⟨member, -⟩)
    · exact isMember
    · exact member

/-- The value replaces the one with the same key. -/
def put (map : KeyedMap key) (value : α) : KeyedMap key where
  values := (map.remove (key value)).values ++ [value]
  distinct := by
    rw [map_append, nodup_append]
    refine ⟨(map.remove (key value)).distinct, nodup_singleton _, ?_⟩
    intro other member last isLast
    obtain ⟨kept, keptMember, rfl⟩ := mem_map.mp member
    obtain rfl := mem_singleton.mp isLast
    exact (mem_remove.mp keptMember).2

@[simp] theorem mem_put
    {added value : α} :
    value ∈ map.put added ↔
      value = added ∨ value ∈ map ∧ key value ≠ key added := by
  change value ∈ (map.remove (key added)).values ++ [added] ↔ _
  rw [mem_append, mem_singleton, Or.comm]
  exact or_congr_right mem_remove

end Changes

end KeyedMap

end DistributedRdf.Java
