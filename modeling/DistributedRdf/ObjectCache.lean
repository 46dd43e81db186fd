import DistributedRdf.AssociationLists
import DistributedRdf.Words

namespace DistributedRdf.PersistentCache

open AssociationLists (Dict)
open Words (Text)

/-!
# The cache of objects

Every object is kept twice, in a map by its identifier and in a set by its
priority.  The set takes objects of the same priority for the same element.
-/

inductive Fault where
  /-- `KeyError`, or `InconsistentAction` -/
  | raised
  /-- What the language does not define -/
  | undefined
  deriving DecidableEq

structure CachedObject (Obj : Type) where
  id : Text
  obj : Obj
  objectSize : Int
  hitCount : Nat
  lastHitTime : Nat
  deriving DecidableEq

abbrev Comparator (Obj : Type) :=
  CachedObject Obj → CachedObject Obj → Bool

/-- The sum of two numbers of type `long long` -/
def plus (first second : Int) : Int :=
  (first + second).bmod (2 ^ 64)

def Representable (number : Int) : Prop :=
  -2 ^ 63 ≤ number ∧ number < 2 ^ 63
  deriving Decidable

theorem plus_of_representable
    {first second : Int}
    (representable : Representable (first + second)) :
    plus first second = first + second := by
  obtain ⟨least, most⟩ := representable
  exact Int.bmod_eq_of_le (by omega) (by omega)

variable {Obj : Type}

def defaultComparisonFunction : Comparator Obj := fun a b =>
  if a.hitCount ≠ b.hitCount then
    a.hitCount < b.hitCount
  else if a.lastHitTime ≠ b.lastHitTime then
    a.lastHitTime < b.lastHitTime
  else
    a.id < b.id

/-- `std::set::insert` into a set that is given in its order -/
def insert
    (less : Comparator Obj)
    (object : CachedObject Obj) :
    List (CachedObject Obj) → List (CachedObject Obj)
  | [] => [object]
  | first :: rest =>
      if less object first then object :: first :: rest
      else if less first object then first :: insert less object rest
      else first :: rest

/-- `std::set::erase` of what is equivalent to an object -/
def erase
    (less : Comparator Obj)
    (object : CachedObject Obj) :
    List (CachedObject Obj) → List (CachedObject Obj)
  | [] => []
  | first :: rest =>
      if less object first then first :: rest
      else if less first object then first :: erase less object rest
      else rest

structure Cache (Obj : Type) where
  S : List (CachedObject Obj)
  H : Dict Text (CachedObject Obj)
  currentTime : Nat
  sizeLimit : Int
  currentSize : Int

namespace Cache

def new (sizeLimit : Int) : Cache Obj where
  S := []
  H := ∅
  currentTime := 0
  sizeLimit := sizeLimit
  currentSize := 0

variable
  (less : Comparator Obj)
  -- what is read of an object whose memory has been freed
  (freed : CachedObject Obj → Option (CachedObject Obj))
  (c : Cache Obj)
  (id : Text)

/-- The second object is what is read when the map has let go of the first. -/
def deleteElement (obj read : CachedObject Obj) : Cache Obj :=
  { c with
    currentSize := c.currentSize - obj.objectSize
    H := c.H.erase obj.id
    S := erase less read c.S }

def deleteFirstElement : Cache Obj :=
  match c.S with
  | [] => c
  | first :: _ => c.deleteElement less first first

/-- The loop of `Cache_add` and `Cache_set_object`, for a number of rounds -/
def makeRoom : Nat → Cache Obj → Cache Obj
  | 0, c => c
  | rounds + 1, c =>
      if c.S ≠ [] ∧ c.sizeLimit ≤ c.currentSize then
        makeRoom rounds (c.deleteFirstElement less)
      else
        c

/-- The size of an object is `sizeof(*obj)` if it is not given. -/
def add (obj : Obj) (size : Option Nat) : Except Fault (Cache Obj) :=
  if (c.H.lookup id).isSome then
    .error .raised
  else
    let objectSize : Int := size.getD 16
    let c := makeRoom less c.S.length c
    let c :=
      if plus c.currentSize objectSize ≤ c.sizeLimit then
        let toAdd : CachedObject Obj :=
          { id, obj, objectSize, hitCount := 1, lastHitTime := c.currentTime }
        { c with
          currentSize := plus c.currentSize objectSize
          H := c.H.insert id toAdd
          S := insert less toAdd c.S }
      else
        c
    .ok { c with currentTime := c.currentTime + 1 }

def hasObject : Bool :=
  (c.H.lookup id).isSome

def hit : Except Fault (Cache Obj) :=
  match c.H.lookup id with
  | none => .error .raised
  | some cachedFriend =>
      let changed :=
        { cachedFriend with
          hitCount := cachedFriend.hitCount + 1
          lastHitTime := c.currentTime }
      .ok { c with
        S := insert less changed (erase less cachedFriend c.S)
        H := c.H.insert id changed
        currentTime := c.currentTime + 1 }

def get : Except Fault Obj :=
  match c.H.lookup id with
  | none => .error .raised
  | some cachedFriend => .ok cachedFriend.obj

/-- The reference that is passed on refers to the map. -/
def delete : Except Fault (Cache Obj) :=
  match c.H.lookup id with
  | none => .error .raised
  | some cachedFriend =>
      match freed cachedFriend with
      | none => .error .undefined
      | some read => .ok (c.deleteElement less cachedFriend read)

end Cache

end DistributedRdf.PersistentCache
