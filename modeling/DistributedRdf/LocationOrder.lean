import DistributedRdf.TreeSets
import DistributedRdf.UriParsing
import Mathlib

namespace DistributedRdf.Data.LocationSet

open Java List Prod.Lex

/-!
# The set of locations of a datum

Locations are compared in order to be kept in a tree.  Every class compares with
itself by its own fields, and with the others by its name.
-/

/-- A `String` as its code units -/
abbrev JavaString := List (Fin (2 ^ 16))

/-- `String.compareTo` -/
def compareStrings : JavaString → JavaString → Int
  | [], o => -o.length
  | this, [] => this.length
  | c1 :: this, c2 :: o =>
      if c1 = c2 then compareStrings this o else (c1 : Int) - c2

/-- A resource stands for its name. -/
inductive DataLocation where
  | privateLocation (protocol : Protocol) (host path : JavaString)
  | sharedLocation (protocol : Protocol) (diskName path : JavaString)
  | persistentLocation (id : JavaString)
  deriving DecidableEq

namespace DataLocation

/-- The second parts are compared if the first ones are equal. -/
def compareBoth (first second o1 o2 : JavaString) : Int :=
  let compare := compareStrings first o1
  if compare = 0 then compareStrings second o2 else compare

/-- The name of a class is compared with `"class "` and a name. -/
def otherClass : Int := 'i'.toNat - 'c'.toNat

/-- `MultiURI.compareTo` and the comparisons of the three classes -/
def compareTo : DataLocation → DataLocation → Int
  | privateLocation _ host path, privateLocation _ oHost oPath =>
      compareBoth host path oHost oPath
  | sharedLocation _ diskName path, sharedLocation _ oDiskName oPath =>
      compareBoth diskName path oDiskName oPath
  | persistentLocation id, persistentLocation oId => compareStrings id oId
  | _, _ => otherClass

/-- The class of a location -/
inductive Kind where
  | privateKind
  | sharedKind
  | persistentKind
  deriving DecidableEq

def kind : DataLocation → Kind
  | privateLocation .. => .privateKind
  | sharedLocation .. => .sharedKind
  | persistentLocation .. => .persistentKind

def protocol : DataLocation → Protocol
  | privateLocation protocol _ _ => protocol
  | sharedLocation protocol _ _ => protocol
  | persistentLocation _ => .persistentUri

/-- Where the data is -/
def place : DataLocation → JavaString ×ₗ JavaString
  | privateLocation _ host path => toLex (host, path)
  | sharedLocation _ diskName path => toLex (diskName, path)
  | persistentLocation id => toLex (id, [])

end DataLocation

/-- A tree that removes nothing for an element that it does not hold -/
structure Tree extends TreeSet.Implementation DataLocation where
  remove_absent :
    ∀ compareTo element before after,
      TreeSet.Fits compareTo element before after →
        remove compareTo (before ++ after) element = before ++ after

/-- A tree without left branches -/
def linear : Tree where
  toImplementation := TreeSet.linear
  remove_absent := by
    intro compareTo element before after fits
    change TreeSet.removeFrom compareTo (before ++ after) element = _
    induction before with
    | nil =>
        cases after with
        | nil => rfl
        | cons first rest =>
            have less := fits.below first mem_cons_self
            rw [nil_append, TreeSet.removeFrom, if_neg (by omega),
              if_neg (by omega)]
    | cons first rest hypothesis =>
        have parts := fits.tail
        rw [cons_append, TreeSet.removeFrom, if_pos parts.1,
          hypothesis parts.2]

/-- The changes of the set of locations -/
inductive Change where
  /-- `addLocation` -/
  | add (loc : DataLocation)
  /-- `removeValue`, with the location in memory -/
  | remove (loc : DataLocation)
  /-- The loop of `removeHostAndCheckLocationToSave` over private locations -/
  | removeHost (host : JavaString)

def DataLocation.isOn (host : JavaString) : DataLocation → Bool
  | privateLocation _ locHost _ => locHost = host
  | _ => false

def Change.apply
    (sets : Tree)
    (locations : List DataLocation) : Change → List DataLocation
  | .add loc => sets.add DataLocation.compareTo locations loc
  | .remove loc => sets.remove DataLocation.compareTo locations loc
  | .removeHost host => locations.filter fun loc => !loc.isOn host

/-- What a set that tells all locations apart does -/
def Change.applySet
    (locations : Finset DataLocation) : Change → Finset DataLocation
  | .add loc => insert loc locations
  | .remove loc => locations.erase loc
  | .removeHost host => locations.filter fun loc => !loc.isOn host

def Change.Within (locations : Set DataLocation) : Change → Prop
  | .add loc => loc ∈ locations
  | .remove loc => loc ∈ locations
  | .removeHost _ => True

open DataLocation (compareTo)

/-- The contract of `compareTo`, where 0 means that locations are the same -/
structure IsTotalOrder (locations : Set DataLocation) : Prop where
  antisymm :
    ∀ a ∈ locations, ∀ b ∈ locations, 0 < compareTo a b ↔ compareTo b a < 0
  trans :
    ∀ a ∈ locations, ∀ b ∈ locations, ∀ c ∈ locations,
      compareTo a b < 0 → compareTo b c < 0 → compareTo a c < 0
  zero : ∀ a ∈ locations, ∀ b ∈ locations, compareTo a b = 0 ↔ a = b

/-- Every location that was added and not removed is in the set, once. -/
structure KeepsApart (locations : Set DataLocation) : Prop where
  order : IsTotalOrder locations
  sets :
    ∀ (sets : Tree) (changes : List Change),
      (∀ change ∈ changes, change.Within locations) →
        (changes.foldl (Change.apply sets) []).Nodup ∧
          (changes.foldl (Change.apply sets) []).toFinset =
            changes.foldl Change.applySet ∅

/-!
## The order of one class
-/

theorem compareStrings_neg_iff (this o : JavaString) :
    compareStrings this o < 0 ↔ this < o := by
  induction this generalizing o with
  | nil =>
      cases o with
      | nil => simp [compareStrings]
      | cons c2 o => simp [compareStrings]; omega
  | cons c1 this hypothesis =>
      cases o with
      | nil => simp [compareStrings]; omega
      | cons c2 o =>
          rw [compareStrings, cons_lt_cons_iff]
          by_cases same : c1 = c2
          · rw [if_pos same, hypothesis]
            simp [same]
          · rw [if_neg same]
            simp [same]

theorem compareStrings_swap (this o : JavaString) :
    compareStrings o this = -compareStrings this o := by
  induction this generalizing o with
  | nil => cases o <;> simp [compareStrings]
  | cons c1 this hypothesis =>
      cases o with
      | nil => simp [compareStrings]
      | cons c2 o =>
          rw [compareStrings, compareStrings]
          by_cases same : c1 = c2
          · rw [if_pos same, if_pos same.symm, hypothesis]
          · rw [if_neg same, if_neg (Ne.symm same)]
            omega

/-- A comparison is zero where it has no sign. -/
theorem zero_iff_of_neg_iff
    {α : Type u}
    [LinearOrder α]
    {this o : α}
    {compared : Int}
    (less : compared < 0 ↔ this < o)
    (greater : -compared < 0 ↔ o < this) :
    compared = 0 ↔ this = o := by
  constructor
  · intro zero
    exact le_antisymm (not_lt.mp (mt greater.mpr (by omega)))
      (not_lt.mp (mt less.mpr (by omega)))
  · rintro rfl
    have notLess := mt less.mp (lt_irrefl this)
    have notGreater := mt greater.mp (lt_irrefl this)
    omega

theorem compareStrings_zero_iff (this o : JavaString) :
    compareStrings this o = 0 ↔ this = o :=
  zero_iff_of_neg_iff (compareStrings_neg_iff this o)
    (compareStrings_swap this o ▸ compareStrings_neg_iff o this)

namespace DataLocation

variable {a b : DataLocation}

section

variable (sameKind : a.kind = b.kind)

include sameKind

theorem compareTo_swap :
    compareTo b a = -compareTo a b := by
  have both (first second o1 o2 : JavaString) :
      compareBoth o1 o2 first second = -compareBoth first second o1 o2 := by
    rw [compareBoth, compareBoth, compareStrings_swap first o1]
    by_cases same : compareStrings first o1 = 0
    · rw [if_pos same, if_pos (by omega), compareStrings_swap]
    · rw [if_neg same, if_neg (by omega)]
  cases a <;> cases b <;> simp only [kind, reduceCtorEq] at sameKind
  · exact both ..
  · exact both ..
  · exact compareStrings_swap ..

theorem compareTo_neg_iff :
    compareTo a b < 0 ↔ a.place < b.place := by
  have both (first second o1 o2 : JavaString) :
      compareBoth first second o1 o2 < 0 ↔
        toLex (first, second) < toLex (o1, o2) := by
    rw [compareBoth, toLex_lt_toLex]
    by_cases same : compareStrings first o1 = 0
    · rw [if_pos same, compareStrings_neg_iff]
      simp [(compareStrings_zero_iff _ _).mp same]
    · rw [if_neg same, compareStrings_neg_iff]
      simp [mt (compareStrings_zero_iff _ _).mpr same]
  cases a <;> cases b <;> simp only [kind, reduceCtorEq] at sameKind
  · exact both ..
  · exact both ..
  · rw [compareTo, compareStrings_neg_iff, place, place,
      toLex_lt_toLex]
    simp

theorem compareTo_zero_iff :
    compareTo a b = 0 ↔ a.place = b.place :=
  zero_iff_of_neg_iff (compareTo_neg_iff sameKind)
    (compareTo_swap sameKind ▸ compareTo_neg_iff sameKind.symm)

end

theorem compareTo_other (different : a.kind ≠ b.kind) :
    compareTo a b = otherClass := by
  cases a <;> cases b <;> simp [kind] at different <;> rfl

theorem eq_iff :
    a = b ↔ a.kind = b.kind ∧ a.protocol = b.protocol ∧ a.place = b.place := by
  cases a <;> cases b <;> simp [kind, protocol, place]

end DataLocation

/-- All locations are of one class, and a place has one protocol. -/
structure Comparable (locations : Set DataLocation) : Prop where
  oneKind : ∀ a ∈ locations, ∀ b ∈ locations, a.kind = b.kind
  oneProtocol :
    ∀ a ∈ locations, ∀ b ∈ locations,
      a.kind = b.kind → a.place = b.place → a.protocol = b.protocol

section

variable {locations : Set DataLocation}

theorem Comparable.isTotalOrder
    (comparable : Comparable locations) :
    IsTotalOrder locations where
  antisymm := by
    intro a inA b inB
    have swapped := DataLocation.compareTo_swap (comparable.oneKind a inA b inB)
    omega
  trans := by
    intro a inA b inB c inC
    rw [DataLocation.compareTo_neg_iff (comparable.oneKind a inA b inB),
      DataLocation.compareTo_neg_iff (comparable.oneKind b inB c inC),
      DataLocation.compareTo_neg_iff (comparable.oneKind a inA c inC)]
    exact lt_trans
  zero := by
    intro a inA b inB
    have sameKind := comparable.oneKind a inA b inB
    rw [DataLocation.compareTo_zero_iff sameKind, DataLocation.eq_iff]
    exact ⟨fun samePlace =>
        ⟨sameKind, comparable.oneProtocol a inA b inB sameKind samePlace,
          samePlace⟩,
      fun same => same.2.2⟩

theorem IsTotalOrder.comparable
    (order : IsTotalOrder locations) :
    Comparable locations := by
  have oneKind :
      ∀ a ∈ locations, ∀ b ∈ locations, a.kind = b.kind := by
    intro a inA b inB
    by_contra different
    -- Each of the two is above the other one.
    have above := DataLocation.compareTo_other different
    have below := (order.antisymm a inA b inB).mp (by rw [above]; decide)
    rw [DataLocation.compareTo_other (Ne.symm different)] at below
    exact absurd below (by decide)
  refine ⟨oneKind, fun a inA b inB sameKind samePlace => ?_⟩
  have zero := (DataLocation.compareTo_zero_iff sameKind).mpr samePlace
  rw [(order.zero a inA b inB).mp zero]

/-!
## The tree
-/

/-- The elements are in ascending order. -/
def Ascending (elements : List DataLocation) : Prop :=
  elements.Pairwise fun a b => compareTo a b < 0

variable {elements : List DataLocation}

theorem IsTotalOrder.nodup
    (order : IsTotalOrder locations)
    (within : ∀ loc ∈ elements, loc ∈ locations)
    (ascending : Ascending elements) :
    elements.Nodup := by
  refine List.Pairwise.imp_of_mem ?_ ascending
  rintro a b inA - less rfl
  have zero := (order.zero a (within a inA) a (within a inA)).mpr rfl
  omega

/-- A location is at its place, or there is a place for it. -/
theorem IsTotalOrder.exists_fits
    (order : IsTotalOrder locations)
    (within : ∀ loc ∈ elements, loc ∈ locations)
    (ascending : Ascending elements)
    {loc : DataLocation}
    (inLocations : loc ∈ locations) :
    ∃ before after,
      TreeSet.Fits compareTo loc before after ∧
        (elements = before ++ loc :: after ∨
          elements = before ++ after ∧ loc ∉ elements) := by
  induction elements with
  | nil => exact ⟨[], [], ⟨by simp, by simp⟩, .inr ⟨rfl, not_mem_nil⟩⟩
  | cons first rest hypothesis =>
      obtain ⟨least, ascendingRest⟩ := pairwise_cons.mp ascending
      have inFirst := within first mem_cons_self
      have inRest (other : DataLocation) (member : other ∈ rest) :=
        within other (mem_cons_of_mem first member)
      rcases lt_trichotomy (compareTo loc first) 0 with less | zero | greater
      · have below : ∀ other ∈ first :: rest, compareTo loc other < 0 := by
          refine forall_mem_cons.mpr ⟨less, fun other member => ?_⟩
          exact order.trans loc inLocations first inFirst other
            (inRest other member) less (least other member)
        refine ⟨[], first :: rest, ⟨by simp, below⟩, .inr ⟨rfl, ?_⟩⟩
        intro member
        have lessItself := below loc member
        have same := (order.zero loc inLocations loc inLocations).mpr rfl
        omega
      · obtain rfl := (order.zero loc inLocations first inFirst).mp zero
        exact ⟨[], rest, ⟨by simp, least⟩, .inl rfl⟩
      · obtain ⟨before, after, ⟨above, belowAfter⟩, split⟩ :=
          hypothesis inRest ascendingRest
        refine ⟨first :: before, after,
          ⟨forall_mem_cons.mpr ⟨greater, above⟩, belowAfter⟩, ?_⟩
        rcases split with found | ⟨absent, notInRest⟩
        · exact .inl (congrArg (first :: ·) found)
        · refine .inr ⟨congrArg (first :: ·) absent, ?_⟩
          have different : loc ≠ first := by
            intro same
            have zero := (order.zero loc inLocations first inFirst).mpr same
            omega
          exact not_mem_cons_of_ne_of_not_mem different notInRest

/-- What is kept between the changes -/
structure Holds
    (locations : Set DataLocation)
    (elements : List DataLocation)
    (expected : Finset DataLocation) : Prop where
  within : ∀ loc ∈ elements, loc ∈ locations
  ascending : Ascending elements
  same : elements.toFinset = expected

variable {expected : Finset DataLocation}

theorem Holds.apply
    (order : IsTotalOrder locations)
    (sets : Tree)
    (holds : Holds locations elements expected)
    {change : Change}
    (changeWithin : change.Within locations) :
    Holds locations (change.apply sets elements)
      (change.applySet expected) := by
  obtain ⟨within, ascending, rfl⟩ := holds
  cases change with
  | add loc =>
      obtain ⟨before, after, fits, found | ⟨absent, notIn⟩⟩ :=
        order.exists_fits within ascending changeWithin
      · have zero := (order.zero loc changeWithin loc changeWithin).mpr rfl
        have added := sets.add_present compareTo loc loc before after fits zero
        rw [← found] at added
        rw [Change.apply, added, Change.applySet,
          Finset.insert_eq_self.mpr (by simp [found])]
        exact ⟨within, ascending, rfl⟩
      · have added := sets.add_absent compareTo loc before after fits
        rw [← absent] at added
        rw [Change.apply, added]
        refine ⟨?_, ?_, ?_⟩
        · intro other member
          rw [absent] at within
          simp only [mem_append, mem_cons] at member within
          rcases member with inBefore | rfl | inAfter
          · exact within other (.inl inBefore)
          · exact changeWithin
          · exact within other (.inr inAfter)
        · rw [absent] at within ascending
          obtain ⟨front, back, across⟩ := pairwise_append.mp ascending
          refine pairwise_append.mpr
            ⟨front, pairwise_cons.mpr ⟨fits.below, back⟩, ?_⟩
          intro other inBefore later inLater
          rcases mem_cons.mp inLater with rfl | inAfter
          · have inOther := within other (mem_append_left _ inBefore)
            exact (order.antisymm later changeWithin other inOther).mp
              (fits.above other inBefore)
          · exact across other inBefore later inAfter
        · ext other
          simp [absent, Change.applySet]
  | remove loc =>
      obtain ⟨before, after, fits, found | ⟨absent, notIn⟩⟩ :=
        order.exists_fits within ascending changeWithin
      · have zero := (order.zero loc changeWithin loc changeWithin).mpr rfl
        have removed :=
          sets.remove_present compareTo loc loc before after fits zero
        rw [← found] at removed
        have distinct := order.nodup within ascending
        have sublist : (before ++ after).Sublist elements := by
          rw [found]
          exact (sublist_cons_self loc after).append_left before
        rw [Change.apply, removed]
        refine ⟨fun other member => within other (sublist.subset member),
          List.Pairwise.sublist sublist ascending, ?_⟩
        rw [found] at distinct ⊢
        have notBefore := nodup_middle.mp distinct
        have absent := (nodup_cons.mp notBefore).1
        ext other
        simp only [mem_toFinset, Change.applySet, Finset.mem_erase,
          mem_append, mem_cons] at absent ⊢
        by_cases same : other = loc
        · subst same
          simp [absent]
        · simp [same]
      · have removed := sets.remove_absent compareTo loc before after fits
        rw [← absent] at removed
        rw [Change.apply, removed, Change.applySet,
          Finset.erase_eq_of_notMem (by simpa using notIn)]
        exact ⟨within, ascending, rfl⟩
  | removeHost host =>
      refine ⟨fun loc member => within loc (mem_of_mem_filter member),
        ascending.filter _, ?_⟩
      rw [Change.apply, Change.applySet, toFinset_filter]

/-- Every run of changes keeps the locations apart. -/
theorem IsTotalOrder.foldl
    (order : IsTotalOrder locations)
    (sets : Tree)
    (holds : Holds locations elements expected)
    (changes : List Change)
    (changesWithin : ∀ change ∈ changes, change.Within locations) :
    Holds locations (changes.foldl (Change.apply sets) elements)
      (changes.foldl Change.applySet expected) := by
  induction changes generalizing elements expected with
  | nil => exact holds
  | cons change rest hypothesis =>
      obtain ⟨first, others⟩ := forall_mem_cons.mp changesWithin
      exact hypothesis (holds.apply order sets first) others

/--
Locations are kept apart exactly if they are all of one class and no two of them
only differ in their protocols.
-/
theorem keepsApart_iff : KeepsApart locations ↔ Comparable locations := by
  constructor
  · exact fun keeps => keeps.order.comparable
  · intro comparable
    have order := comparable.isTotalOrder
    refine ⟨order, fun sets changes changesWithin => ?_⟩
    have holds := order.foldl sets ⟨by simp, .nil, rfl⟩ changes changesWithin
    exact ⟨order.nodup holds.within holds.ascending, holds.same⟩

end

/-- A file of a host and the same file of the disk that it mounts -/
theorem not_keepsApart_classes :
    ¬ KeepsApart
      {.privateLocation .fileUri [1] [2], .sharedLocation .fileUri [3] [2]} :=
  fun keeps =>
    absurd (keeps.order.comparable.oneKind _ (.inl rfl) _ (.inr rfl))
      (by decide)

end DistributedRdf.Data.LocationSet
