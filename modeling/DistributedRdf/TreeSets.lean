import Mathlib.Data.List.Basic

namespace DistributedRdf.Java

open List

/-!
# Tree sets

A `TreeSet` looks an element up by comparing it with elements that it already
holds, and takes one that compares as equal for the element itself.  Which ones
it compares with depends on the shape of the tree.  What a change does is
therefore only determined if the element compares with all of them according to
the order in which they are stored.
-/

namespace TreeSet

variable
  {Element : Type u}
  (compareTo : Element → Element → Int)

/-- The element belongs between the two parts of a set. -/
structure Fits
    (element : Element)
    (before after : List Element) : Prop where
  above : ∀ other, other ∈ before → 0 < compareTo element other
  below : ∀ other, other ∈ after → compareTo element other < 0

variable (elements : List Element)

/-- There is a place for the element. -/
def Insertable
    (element : Element) : Prop :=
  ∃ place ≤ elements.length,
    Fits compareTo element (elements.take place) (elements.drop place)

/-- The comparisons lead to where the element is. -/
def Findable
    [DecidableEq Element]
    (element : Element) : Prop :=
  Fits compareTo element
    (elements.take (elements.idxOf element))
    (elements.drop (elements.idxOf element + 1))

instance Fits.decidable
    (element : Element)
    (before after : List Element) :
    Decidable (Fits compareTo element before after) :=
  decidable_of_iff
    ((∀ other, other ∈ before → 0 < compareTo element other) ∧
      ∀ other, other ∈ after → compareTo element other < 0)
    ⟨fun fits => ⟨fits.1, fits.2⟩, fun fits => ⟨fits.above, fits.below⟩⟩

instance Insertable.decidable
    (element : Element) :
    Decidable (Insertable compareTo elements element) :=
  inferInstanceAs (Decidable (∃ place ≤ elements.length, _))

instance Findable.decidable
    [DecidableEq Element]
    (element : Element) :
    Decidable (Findable compareTo elements element) :=
  inferInstanceAs (Decidable (Fits _ _ _ _))

/-- Changes of a set that is given by its elements in ascending order. -/
structure Implementation (Element : Type u) where
  add : (Element → Element → Int) → List Element → Element → List Element
  remove : (Element → Element → Int) → List Element → Element → List Element
  add_absent :
    ∀ compareTo element before after,
      Fits compareTo element before after →
        add compareTo (before ++ after) element =
          before ++ element :: after
  add_present :
    ∀ compareTo element same before after,
      Fits compareTo element before after → compareTo element same = 0 →
        add compareTo (before ++ same :: after) element =
          before ++ same :: after
  remove_present :
    ∀ compareTo element same before after,
      Fits compareTo element before after → compareTo element same = 0 →
        remove compareTo (before ++ same :: after) element =
          before ++ after

/-- Insertion by comparing from the least element on. -/
def addFrom
    (compareTo : Element → Element → Int) :
    List Element → Element → List Element
  | [], element => [element]
  | first :: rest, element =>
      if 0 < compareTo element first then
        first :: addFrom compareTo rest element
      else if compareTo element first = 0 then
        first :: rest
      else
        element :: first :: rest

def removeFrom
    (compareTo : Element → Element → Int) :
    List Element → Element → List Element
  | [], _ => []
  | first :: rest, element =>
      if 0 < compareTo element first then
        first :: removeFrom compareTo rest element
      else if compareTo element first = 0 then
        rest
      else
        first :: rest

variable {compareTo}

theorem Fits.tail
    {element first : Element}
    {before after : List Element}
    (fits : Fits compareTo element (first :: before) after) :
    0 < compareTo element first ∧ Fits compareTo element before after :=
  ⟨fits.above first mem_cons_self,
    fun other member => fits.above other (mem_cons_of_mem first member),
    fits.below⟩

/-- A tree without left branches. -/
def linear : Implementation Element where
  add := addFrom
  remove := removeFrom
  add_absent := by
    intro compareTo element before after fits
    induction before with
    | nil =>
        cases after with
        | nil => rfl
        | cons first rest =>
            have less := fits.below first mem_cons_self
            rw [nil_append, addFrom, if_neg (by omega), if_neg (by omega)]
            rfl
    | cons first rest hypothesis =>
        have parts := fits.tail
        rw [cons_append, addFrom, if_pos parts.1,
          hypothesis parts.2]
        rfl
  add_present := by
    intro compareTo element same before after fits equal
    induction before with
    | nil => rw [nil_append, addFrom, if_neg (by omega), if_pos equal]
    | cons first rest hypothesis =>
        have parts := fits.tail
        rw [cons_append, addFrom, if_pos parts.1,
          hypothesis parts.2]
  remove_present := by
    intro compareTo element same before after fits equal
    induction before with
    | nil =>
        rw [nil_append, removeFrom, if_neg (by omega), if_pos equal]
        rfl
    | cons first rest hypothesis =>
        have parts := fits.tail
        rw [cons_append, removeFrom, if_pos parts.1,
          hypothesis parts.2]
        rfl

/-!
## The elements after a change
-/

section Changes

variable
  (sets : Implementation Element)
  {compareTo : Element → Element → Int}
  {elements : List Element}
  {element : Element}

theorem Implementation.add_perm
    (insertable : Insertable compareTo elements element) :
    (sets.add compareTo elements element).Perm (element :: elements) := by
  obtain ⟨place, _, fits⟩ := insertable
  have added := sets.add_absent compareTo element _ _ fits
  rw [take_append_drop] at added
  rw [added]
  calc
    (elements.take place ++ element :: elements.drop place).Perm
        (element :: (elements.take place ++ elements.drop place)) :=
      perm_middle
    _ = element :: elements := by
      rw [take_append_drop]

variable [DecidableEq Element]

theorem split_at_idxOf
    (member : element ∈ elements) :
    elements.take (elements.idxOf element) ++
        element :: elements.drop (elements.idxOf element + 1) =
      elements := by
  have inBounds := idxOf_lt_length_of_mem member
  calc
    elements.take (elements.idxOf element) ++
          element :: elements.drop (elements.idxOf element + 1) =
        elements.take (elements.idxOf element) ++
          elements.drop (elements.idxOf element) := by
      rw [drop_eq_getElem_cons inBounds, getElem_idxOf inBounds]
    _ = elements := take_append_drop ..

theorem Implementation.add_member
    (findable : Findable compareTo elements element)
    (member : element ∈ elements)
    (equal : compareTo element element = 0) :
    sets.add compareTo elements element = elements := by
  have added := sets.add_present compareTo element element _ _ findable equal
  rwa [split_at_idxOf member] at added

theorem Implementation.remove_member
    (findable : Findable compareTo elements element)
    (member : element ∈ elements)
    (equal : compareTo element element = 0) :
    sets.remove compareTo elements element = elements.erase element := by
  have removed :=
    sets.remove_present compareTo element element _ _ findable equal
  rw [split_at_idxOf member] at removed
  rw [removed, ← eraseIdx_eq_take_drop_succ,
    ← erase_eq_eraseIdx_of_idxOf rfl]

end Changes

end TreeSet

end DistributedRdf.Java
