import DistributedRdf.ObjectCache
import DistributedRdf.TransitionSystem

namespace DistributedRdf.PersistentCache

open Execution List
open Words (Text)

/-!
# The two caches

The cache in Python has one list.  Before an object is added the other cache
makes room while it is full, whereas this one only asks whether the object fits.
-/

variable {Obj : Type}

namespace Core

/-- It does not look at the identifiers. -/
def defaultComparisonFunction : Comparator Obj := fun x y =>
  if x.hitCount ≠ y.hitCount then x.hitCount < y.hitCount
  else x.lastHitTime < y.lastHitTime

structure Cache (Obj : Type) where
  cache : List (CachedObject Obj)
  currentTime : Nat
  totalSize : Int
  sizeLimit : Int

namespace Cache

def new (sizeLimit : Int) : Cache Obj where
  cache := []
  currentTime := 0
  totalSize := 0
  sizeLimit := sizeLimit

variable
  (comparator : Comparator Obj)
  (p : Cache Obj)
  (id : Text)

def getLast : Option (CachedObject Obj) :=
  match p.cache with
  | [] => none
  | first :: rest =>
      some ((first :: rest).foldl
        (fun retVal objWrapper =>
          if comparator objWrapper retVal then objWrapper else retVal) first)

def find : Option (CachedObject Obj) :=
  p.cache.find? (·.id = id)

def delete : Except Fault (Cache Obj) :=
  match p.find id with
  | none => .error .raised
  | some objWrapper =>
      .ok { p with
        totalSize := p.totalSize - objWrapper.objectSize
        cache := p.cache.eraseP (·.id = id) }

/-- The loop of `_enforce_invariant`, for a number of rounds -/
def enforceInvariant : Nat → Cache Obj → Except Fault (Cache Obj)
  | 0, p => .ok p
  | rounds + 1, p =>
      if p.totalSize ≤ p.sizeLimit then .ok p
      else
        match p.getLast comparator with
        | none => .ok p
        | some toErase => do enforceInvariant rounds (← p.delete toErase.id)

def hasObject : Bool :=
  p.cache.any (·.id = id)

def add (obj : Obj) (objectSize : Int) : Except Fault (Cache Obj) :=
  if p.hasObject id then
    .error .raised
  else
    let added :=
      if objectSize + p.totalSize ≤ p.sizeLimit then
        { p with
          cache :=
            p.cache ++
              [{ id, obj, objectSize, hitCount := 1
                 lastHitTime := p.currentTime }]
          totalSize := p.totalSize + objectSize }
      else
        p
    enforceInvariant comparator added.cache.length
      { added with currentTime := added.currentTime + 1 }

def get : Except Fault Obj :=
  match p.find id with
  | none => .error .raised
  | some objWrapper => .ok objWrapper.obj

/-- The first object with the identifier is hit. -/
def hitFirst (time : Nat) : List (CachedObject Obj) → List (CachedObject Obj)
  | [] => []
  | first :: rest =>
      if first.id = id then
        { first with hitCount := first.hitCount + 1, lastHitTime := time } ::
          rest
      else
        first :: hitFirst time rest

def hit : Except Fault (Cache Obj) :=
  if p.hasObject id then
    .ok { p with
      cache := hitFirst id p.currentTime p.cache
      currentTime := p.currentTime + 1 }
  else
    .error .raised

end Cache

end Core

/-!
## Calls of both caches
-/

variable (Obj)

inductive Call where
  | add (id : Text) (obj : Obj) (size : Nat)
  | hit (id : Text)
  | get (id : Text)
  | delete (id : Text)
  | hasObject (id : Text)

inductive Answer where
  | nothing
  | object (obj : Obj)
  | bool (value : Bool)
  deriving DecidableEq

/-- A cache with what it answers; after an error it is as before. -/
abbrev Returned (State : Type) :=
  Except Fault (Answer Obj × State)

variable
  (freed : CachedObject Obj → Option (CachedObject Obj))
  {Obj}
  (c : Cache Obj)

def Cache.call : Call Obj → Returned Obj (Cache Obj)
  | .add id obj size =>
      (c.add defaultComparisonFunction id obj size).map (.nothing, ·)
  | .hit id => (c.hit defaultComparisonFunction id).map (.nothing, ·)
  | .get id => (c.get id).map (.object ·, c)
  | .delete id =>
      (c.delete defaultComparisonFunction freed id).map (.nothing, ·)
  | .hasObject id => .ok (.bool (c.hasObject id), c)

def Core.Cache.call (p : Cache Obj) : Call Obj → Returned Obj (Cache Obj)
  | .add id obj size =>
      (p.add defaultComparisonFunction id obj size).map (.nothing, ·)
  | .hit id => (p.hit id).map (.nothing, ·)
  | .get id => (p.get id).map (.object ·, p)
  | .delete id => (p.delete id).map (.nothing, ·)
  | .hasObject id => .ok (.bool (p.hasObject id), p)

def after {State : Type} (before : State) : Returned Obj State → State
  | .ok (_, state) => state
  | .error _ => before

/-- The caches of both languages -/
structure Both (Obj : Type) where
  c : Cache Obj
  p : Core.Cache Obj

namespace Both

variable
  (both : Both Obj)
  (call : Call Obj)

def next : Both Obj :=
  ⟨after both.c (both.c.call freed call), after both.p (both.p.call call)⟩

def system (sizeLimit : Int) : TransitionSystem (Both Obj) (Call Obj) where
  start := ⟨.new sizeLimit, .new sizeLimit⟩
  Enabled _ _ := True
  next := next freed

/-- The same identifiers with the same objects -/
def Agree : Prop :=
  ∀ id, (both.c.H.lookup id).map (·.obj) = (both.p.find id).map (·.obj)

def SameAnswer : Prop :=
  (both.c.call freed call).map (·.1) = (both.p.call call).map (·.1)

/--
An object that fits the limit is stored, and what makes room for it has least
priority.
-/
def Documented
    (less : Comparator Obj)
    (before objects : Text → Option (CachedObject Obj))
    (sizeLimit total : Int) : Call Obj → Prop
  | .add id obj size =>
      before id = none → size ≤ sizeLimit →
        (objects id).map (·.obj) = some obj ∧ total ≤ sizeLimit ∧
          ∀ gone ∈ before gone.id, objects gone.id = none →
            ∀ kept ∈ before kept.id, (objects kept.id).isSome →
              less kept gone = false
  | _ => True

def CallDocumented : Prop :=
  let next := both.next freed call
  Documented defaultComparisonFunction both.c.H.lookup next.c.H.lookup
      next.c.sizeLimit next.c.currentSize call ∧
    Documented Core.defaultComparisonFunction both.p.find next.p.find
      next.p.sizeLimit next.p.totalSize call

/--
There is room for an object that fits the limit, and the cache is not full; a
reference to an object that is deleted can still be followed.
-/
def Roomy : Call Obj → Prop
  | .add id _ size =>
      both.c.H.lookup id = none →
        (both.c.S = [] ∨ both.c.currentSize < both.c.sizeLimit) ∧
          Representable (both.c.currentSize + size) ∧
          (both.c.currentSize + size ≤ both.c.sizeLimit ∨
            both.c.sizeLimit < size)
  | .delete id => ∀ object ∈ both.c.H.lookup id, freed object = some object
  | _ => True

end Both

/-!
## Without room to make
-/

/-- What both caches keep of an object -/
def CachedObject.content (object : CachedObject Obj) : Obj × Int :=
  (object.obj, object.objectSize)

structure Mirrors (p : Core.Cache Obj) : Prop where
  objects :
    ∀ id,
      (c.H.lookup id).map CachedObject.content =
        (p.find id).map CachedObject.content
  named : ∀ id, ∀ object ∈ c.H.lookup id, object.id = id
  distinct : (p.cache.map (·.id)).Nodup
  positive : ∀ object ∈ p.cache, 0 ≤ object.objectSize
  sizes : c.currentSize = p.totalSize
  limits : c.sizeLimit = p.sizeLimit
  total : p.cache ≠ [] → p.totalSize ≤ p.sizeLimit

/-- What a call does to caches that mirror each other -/
structure Keeps (both : Both Obj) (call : Call Obj) : Prop where
  answer : both.SameAnswer freed call
  mirrors : Mirrors (both.next freed call).c (both.next freed call).p
  documented : both.CallDocumented freed call

section Lists

variable
  {id other : Text}
  {objects : List (CachedObject Obj)}
  (time : Nat)

theorem map_id_hitFirst :
    (Core.Cache.hitFirst id time objects).map (·.id) = objects.map (·.id) := by
  induction objects with
  | nil => rfl
  | cons first rest hypothesis =>
      rw [Core.Cache.hitFirst]
      split
      · rfl
      · rw [map_cons, hypothesis, map_cons]

theorem find_hitFirst :
    ((Core.Cache.hitFirst id time objects).find? (·.id = other)).map
        CachedObject.content =
      (objects.find? (·.id = other)).map CachedObject.content := by
  induction objects with
  | nil => rfl
  | cons first rest hypothesis =>
      rw [Core.Cache.hitFirst]
      by_cases same : first.id = other
      · split
        · simp [same, CachedObject.content]
        · simp [same]
      · split
        · simp [same]
        · simpa [same] using hypothesis

theorem positive_hitFirst
    {time : Nat}
    (positive : ∀ object ∈ objects, 0 ≤ object.objectSize) :
    ∀ object ∈ Core.Cache.hitFirst id time objects, 0 ≤ object.objectSize := by
  induction objects with
  | nil => exact positive
  | cons first rest hypothesis =>
      obtain ⟨ofFirst, ofRest⟩ := forall_mem_cons.mp positive
      rw [Core.Cache.hitFirst]
      split
      · exact forall_mem_cons.mpr ⟨ofFirst, ofRest⟩
      · exact forall_mem_cons.mpr ⟨ofFirst, hypothesis ofRest⟩

theorem find_eraseP (distinct : (objects.map (·.id)).Nodup) :
    (objects.eraseP (·.id = id)).find? (·.id = other) =
      if other = id then none else objects.find? (·.id = other) := by
  induction objects with
  | nil => simp
  | cons first rest hypothesis =>
      obtain ⟨absent, distinctRest⟩ := nodup_cons.mp distinct
      have later := hypothesis distinctRest
      by_cases isFirst : first.id = id
      · rw [eraseP_cons_of_pos (by simpa using isFirst)]
        by_cases same : other = id
        · rw [if_pos same, find?_eq_none]
          rintro object member isOther
          exact absent (mem_map.mpr ⟨object, member,
            (of_decide_eq_true isOther).trans (same.trans isFirst.symm)⟩)
        · have different : first.id ≠ other := by
            rintro rfl
            exact same isFirst
          simp [same, different]
      · rw [eraseP_cons_of_neg (by simpa using isFirst)]
        by_cases same : first.id = other
        · subst same
          simp [isFirst]
        · simpa [same] using later

end Lists

namespace Mirrors

variable
  {freed}
  {c : Cache Obj}
  {p : Core.Cache Obj}
  {id : Text}

section

variable (mirrors : Mirrors c p)

include mirrors

theorem isSome_eq (id : Text) :
    (c.H.lookup id).isSome = (p.find id).isSome := by
  have same := congrArg Option.isSome (mirrors.objects id)
  simpa using same

theorem hasObject_eq (id : Text) :
    p.hasObject id = (c.H.lookup id).isSome := by
  rw [mirrors.isSome_eq, Core.Cache.find, Core.Cache.hasObject,
    Bool.eq_iff_iff, any_eq_true, find?_isSome]

theorem agree : Both.Agree ⟨c, p⟩ := by
  intro id
  have same := congrArg (Option.map Prod.fst) (mirrors.objects id)
  rwa [Option.map_map, Option.map_map] at same

variable {call : Call Obj}

/-- A call that both caches refuse -/
theorem keeps_of_raised
    (raised : c.call freed call = .error .raised)
    (alsoRaised : p.call call = .error .raised)
    (documented : Both.CallDocumented freed ⟨c, p⟩ call) :
    Keeps freed ⟨c, p⟩ call where
  answer := by rw [Both.SameAnswer, raised, alsoRaised]; rfl
  mirrors := by
    rw [Both.next, raised, alsoRaised]
    exact mirrors
  documented := documented

omit mirrors in
theorem keeps_of_returned
    {answer : Answer Obj}
    {c' : Cache Obj}
    {p' : Core.Cache Obj}
    (returned : c.call freed call = .ok (answer, c'))
    (alsoReturned : p.call call = .ok (answer, p'))
    (mirrors : Mirrors c' p')
    (documented :
      Both.Documented defaultComparisonFunction c.H.lookup c'.H.lookup
        c'.sizeLimit c'.currentSize call)
    (alsoDocumented :
      Both.Documented Core.defaultComparisonFunction p.find p'.find
        p'.sizeLimit p'.totalSize call) :
    Keeps freed ⟨c, p⟩ call where
  answer := by rw [Both.SameAnswer, returned, alsoReturned]; rfl
  mirrors := by
    rw [Both.next, returned, alsoReturned]
    exact mirrors
  documented := by
    rw [Both.CallDocumented, Both.next, returned, alsoReturned]
    exact ⟨documented, alsoDocumented⟩

omit mirrors in
/-- Nothing has to go. -/
theorem documented_of_kept
    {less : Comparator Obj}
    {before objects : Text → Option (CachedObject Obj)}
    {sizeLimit total : Int}
    {obj : Obj}
    {size : Nat}
    (stored :
      before id = none → size ≤ sizeLimit →
        (objects id).map (·.obj) = some obj ∧ total ≤ sizeLimit)
    (kept : ∀ other, (before other).isSome → (objects other).isSome) :
    Both.Documented less before objects sizeLimit total (.add id obj size) := by
  intro absent fits
  obtain ⟨isStored, within⟩ := stored absent fits
  refine ⟨isStored, within, fun gone isGone notKept => ?_⟩
  have stillThere := kept gone.id (by rw [isGone]; rfl)
  rw [notKept] at stillThere
  exact absurd stillThere (by simp)

theorem hit : Keeps freed ⟨c, p⟩ (.hit id) := by
  have sameObject := mirrors.hasObject_eq id
  cases held : c.H.lookup id with
  | none =>
      rw [held] at sameObject
      refine mirrors.keeps_of_raised ?_ ?_ ⟨trivial, trivial⟩
      · simp [Cache.call, Cache.hit, held, Except.map]
      · simp [Core.Cache.call, Core.Cache.hit, sameObject, Except.map]
  | some cachedFriend =>
      have isHeld : p.hasObject id := by rw [sameObject, held]; rfl
      refine keeps_of_returned
        (by simp only [Cache.call, Cache.hit, held]; rfl)
        (by simp only [Core.Cache.call, Core.Cache.hit, isHeld]; rfl)
        ?_ trivial trivial
      refine ⟨fun other => ?_, fun other => ?_, ?_, ?_, mirrors.sizes,
        mirrors.limits, fun notEmpty => mirrors.total fun empty => ?_⟩
      · rw [Core.Cache.find, find_hitFirst]
        refine Eq.trans ?_ (mirrors.objects other)
        by_cases same : other = id
        · subst same
          simp [held, CachedObject.content]
        · simp [same]
      · by_cases same : other = id
        · subst same
          simpa using mirrors.named other cachedFriend held
        · simpa [same] using mirrors.named other
      · rw [map_id_hitFirst]
        exact mirrors.distinct
      · exact positive_hitFirst mirrors.positive
      · exact notEmpty (by rw [empty]; rfl)

theorem get : Keeps freed ⟨c, p⟩ (.get id) := by
  have agree := mirrors.agree id
  cases held : c.H.lookup id with
  | none =>
      have alsoAbsent : p.find id = none := by simpa [held] using agree.symm
      refine mirrors.keeps_of_raised ?_ ?_ ⟨trivial, trivial⟩
      · simp [Cache.call, Cache.get, held, Except.map]
      · simp [Core.Cache.call, Core.Cache.get, alsoAbsent, Except.map]
  | some cachedFriend =>
      obtain ⟨objWrapper, alsoHeld, sameObj⟩ :
          ∃ objWrapper, p.find id = some objWrapper ∧
            objWrapper.obj = cachedFriend.obj := by
        simpa [held] using agree.symm
      refine keeps_of_returned
        (by simp only [Cache.call, Cache.get, held]; rfl)
        ?_ mirrors trivial trivial
      simp only [Core.Cache.call, Core.Cache.get, alsoHeld, sameObj]
      rfl

theorem delete
    (readable : ∀ object ∈ c.H.lookup id, freed object = some object) :
    Keeps freed ⟨c, p⟩ (.delete id) := by
  have objects := mirrors.objects id
  cases held : c.H.lookup id with
  | none =>
      have alsoAbsent : p.find id = none := by simpa [held] using objects.symm
      refine mirrors.keeps_of_raised ?_ ?_ ⟨trivial, trivial⟩
      · simp [Cache.call, Cache.delete, held, Except.map]
      · simp [Core.Cache.call, Core.Cache.delete, alsoAbsent, Except.map]
  | some cachedFriend =>
      obtain ⟨objWrapper, alsoHeld, sameContent⟩ :
          ∃ objWrapper, p.find id = some objWrapper ∧
            objWrapper.content = cachedFriend.content := by
        simpa [held] using objects.symm
      have sameSize : objWrapper.objectSize = cachedFriend.objectSize :=
        congrArg Prod.snd sameContent
      have isId := mirrors.named id cachedFriend held
      refine keeps_of_returned
        (by simp only [Cache.call, Cache.delete, held,
          readable cachedFriend held]; rfl)
        (by simp only [Core.Cache.call, Core.Cache.delete, alsoHeld]; rfl)
        ?_ trivial trivial
      have removed := c.H.lookup_erase id
      refine ⟨fun other => ?_, fun other => ?_, ?_, ?_, ?_, mirrors.limits,
        fun _ => ?_⟩
      · rw [Core.Cache.find, find_eraseP mirrors.distinct]
        rw [Cache.deleteElement, isId]
        by_cases same : other = id
        · subst same
          rw [removed, if_pos rfl]
        · rw [AList.lookup_erase_ne same, if_neg same]
          exact mirrors.objects other
      · rw [Cache.deleteElement, isId]
        by_cases same : other = id
        · subst same
          simp [removed]
        · rw [AList.lookup_erase_ne same]
          exact mirrors.named other
      · exact mirrors.distinct.sublist (eraseP_sublist.map _)
      · exact fun object member =>
          mirrors.positive object (mem_of_mem_eraseP member)
      · rw [Cache.deleteElement, mirrors.sizes, sameSize]
      · have member := mem_of_find?_eq_some alsoHeld
        have size := mirrors.positive objWrapper member
        have total := mirrors.total (ne_nil_of_mem member)
        simp only
        omega

theorem hasObject :
    Keeps freed ⟨c, p⟩ (.hasObject id) := by
  have answered :
      p.call (.hasObject id) = .ok (.bool (c.hasObject id), p) := by
    rw [Core.Cache.call, mirrors.hasObject_eq id, Cache.hasObject]
  exact keeps_of_returned (by rfl) answered mirrors trivial trivial

end

variable
  {obj : Obj}
  {size : Nat}

theorem makeRoom_of_notFull
    {less : Comparator Obj}
    (notFull : c.S = [] ∨ c.currentSize < c.sizeLimit)
    (rounds : Nat) :
    Cache.makeRoom less rounds c = c := by
  cases rounds with
  | zero => rfl
  | succ rounds =>
      refine if_neg fun full => ?_
      rcases notFull with empty | below
      · exact full.1 empty
      · exact absurd full.2 (not_le.mpr below)

theorem enforceInvariant_of_le
    {comparator : Comparator Obj}
    {rounds : Nat}
    (within : rounds ≠ 0 → p.totalSize ≤ p.sizeLimit) :
    p.enforceInvariant comparator rounds = .ok p := by
  cases rounds with
  | zero => rfl
  | succ rounds => exact if_pos (within rounds.succ_ne_zero)

theorem later
    (mirrors : Mirrors c p)
    (time later : Nat) :
    Mirrors { c with currentTime := time } { p with currentTime := later } :=
  ⟨mirrors.objects, mirrors.named, mirrors.distinct, mirrors.positive,
    mirrors.sizes, mirrors.limits, mirrors.total⟩

/-- Both store an object that is new to them. -/
theorem inserted
    (mirrors : Mirrors c p)
    (absent : c.H.lookup id = none)
    {object objWrapper : CachedObject Obj}
    (sameContent : object.content = objWrapper.content)
    (isId : object.id = id)
    (alsoId : objWrapper.id = id)
    (positive : 0 ≤ objWrapper.objectSize)
    (within : p.totalSize + size ≤ p.sizeLimit)
    (S : List (CachedObject Obj))
    (time later : Nat) :
    Mirrors
      { c with
        S
        H := c.H.insert id object
        currentTime := time
        currentSize := c.currentSize + size }
      { p with
        cache := p.cache ++ [objWrapper]
        currentTime := later
        totalSize := p.totalSize + size } := by
  have alsoAbsent : p.find id = none := by
    simpa [absent] using mirrors.isSome_eq id
  refine ⟨fun other => ?_, fun other => ?_, ?_, ?_, ?_, mirrors.limits,
    fun _ => within⟩
  · rw [Core.Cache.find, find?_append, ← Core.Cache.find]
    by_cases same : other = id
    · subst same
      simp [alsoAbsent, alsoId, sameContent]
    · have different : objWrapper.id ≠ other := fun equal =>
        same (equal.symm.trans alsoId)
      simpa [same, different] using mirrors.objects other
  · by_cases same : other = id
    · subst same
      simpa using isId
    · simpa [same] using mirrors.named other
  · rw [map_append, nodup_append]
    refine ⟨mirrors.distinct, nodup_singleton _, ?_⟩
    rintro _ member _ isNew rfl
    obtain ⟨object, held, sameId⟩ := mem_map.mp member
    have found : p.hasObject id :=
      any_eq_true.mpr ⟨object, held, by
        simpa [sameId, alsoId] using mem_singleton.mp isNew⟩
    rw [mirrors.hasObject_eq, absent] at found
    exact absurd found (by simp)
  · simpa [or_imp, forall_and] using ⟨mirrors.positive, positive⟩
  · simp only [mirrors.sizes]

theorem add
    (mirrors : Mirrors c p)
    (roomy : Both.Roomy freed ⟨c, p⟩ (.add id obj size)) :
    Keeps freed ⟨c, p⟩ (.add id obj size) := by
  have sameObject := mirrors.hasObject_eq id
  have alsoFound := mirrors.isSome_eq id
  cases held : c.H.lookup id with
  | some cachedFriend =>
      rw [held] at sameObject alsoFound
      refine mirrors.keeps_of_raised ?_ ?_ ⟨?_, ?_⟩
      · simp [Cache.call, Cache.add, held, Except.map]
      · simp [Core.Cache.call, Core.Cache.add, sameObject, Except.map]
      · intro absent
        simp [held] at absent
      · intro absent
        simp [absent] at alsoFound
  | none =>
      rw [held] at sameObject
      obtain ⟨notFull, representable, fits⟩ := roomy held
      have notFound : p.cache.find? (·.id = id) = none := by
        simpa [held, Core.Cache.find] using alsoFound
      have total : c.currentSize + size ≤ c.sizeLimit ↔
          size + p.totalSize ≤ p.sizeLimit := by
        rw [mirrors.sizes, mirrors.limits, add_comm]
      by_cases enough : c.currentSize + size ≤ c.sizeLimit
      · have alsoEnough := total.mp enough
        have within : p.totalSize + size ≤ p.sizeLimit := by omega
        refine keeps_of_returned
          (by
            simp only [Cache.call, Cache.add, held,
              makeRoom_of_notFull notFull, Option.getD_some,
              plus_of_representable representable, enough, ↓reduceIte,
              Option.isSome_none, Bool.false_eq_true]
            rfl)
          (by
            simp only [Core.Cache.call, Core.Cache.add, sameObject,
              alsoEnough, ↓reduceIte, Option.isSome_none, Bool.false_eq_true]
            rw [enforceInvariant_of_le fun _ => within]
            rfl)
          (mirrors.inserted held (by rfl) (by rfl) (by rfl)
            (Int.natCast_nonneg size) within _ _ _) ?_ ?_
        · refine documented_of_kept (fun _ _ => ⟨by simp, enough⟩) ?_
          intro other isHeld
          by_cases same : other = id
          · subst same
            simp
          · simpa [same] using isHeld
        · refine documented_of_kept (fun _ _ => ⟨?_, within⟩) ?_
          · simp [Core.Cache.find, find?_append, notFound]
          · intro other isHeld
            rw [Core.Cache.find] at isHeld ⊢
            rw [find?_append, Option.isSome_or, isHeld, Bool.true_or]
      · have notEnough := mt total.mpr enough
        have tooLarge : c.sizeLimit < size := fits.resolve_left enough
        have stillWithin (some : p.cache.length ≠ 0) :
            p.totalSize ≤ p.sizeLimit :=
          mirrors.total (length_pos_iff.mp (Nat.pos_of_ne_zero some))
        refine keeps_of_returned
          (by
            simp only [Cache.call, Cache.add, held,
              makeRoom_of_notFull notFull, Option.getD_some,
              plus_of_representable representable, enough, ↓reduceIte,
              Option.isSome_none, Bool.false_eq_true]
            rfl)
          (by
            simp only [Core.Cache.call, Core.Cache.add, sameObject,
              notEnough, ↓reduceIte, Option.isSome_none, Bool.false_eq_true]
            rw [@enforceInvariant_of_le _
              { p with currentTime := p.currentTime + 1 } _ _ stillWithin]
            rfl)
          (mirrors.later _ _) ?_ ?_
        · intro _ small
          exact absurd small (not_le.mpr tooLarge)
        · intro _ small
          rw [← mirrors.limits] at small
          exact absurd small (not_le.mpr tooLarge)

/-- One case for each call -/
theorem call
    (mirrors : Mirrors c p)
    {call : Call Obj}
    (roomy : Both.Roomy freed ⟨c, p⟩ call) :
    Keeps freed ⟨c, p⟩ call := by
  cases call with
  | add id obj size => exact mirrors.add roomy
  | hit id => exact mirrors.hit
  | get id => exact mirrors.get
  | delete id => exact mirrors.delete roomy
  | hasObject id => exact mirrors.hasObject

end Mirrors

namespace Both

variable {sizeLimit : Int}

theorem mirrors_of_run
    {calls : List (Call Obj)}
    {both : Both Obj}
    (run : Run (system freed sizeLimit) (Roomy freed) calls both) :
    Mirrors both.c both.p := by
  refine run.invariant ?_ fun both call mirrors _ roomy =>
    (Mirrors.call mirrors roomy).mirrors
  exact {
    objects := fun _ => rfl
    named := fun _ _ held => absurd held (by simp [system, Cache.new])
    distinct := nodup_nil
    positive := nofun
    sizes := rfl
    limits := rfl
    total := fun notEmpty => absurd rfl notEmpty }

/-- As long as there is room the caches agree and do what they say. -/
theorem agreement_of_run
    {calls : List (Call Obj)}
    {both : Both Obj}
    (run : Run (system freed sizeLimit) (Roomy freed) calls both) :
    both.Agree ∧
      ∀ call, both.Roomy freed call →
        both.SameAnswer freed call ∧ both.CallDocumented freed call := by
  have mirrors := mirrors_of_run freed run
  refine ⟨mirrors.agree, fun call roomy => ?_⟩
  have keeps := mirrors.call roomy
  exact ⟨keeps.answer, keeps.documented⟩

/-- An object that fits behind another one, and one that never fits -/
theorem agreement_twoObjects :
    let both : Both Bool := (system some 6).next (system some 6).start
      (.add "a".toList true 3)
    both.SameAnswer some (.add "b".toList false 3) ∧
      both.SameAnswer some (.add "c".toList true 7) := by
  have run : Run (system some 6) (Roomy some) [.add "a".toList true 3] _ :=
    Run.start.snoc trivial fun _ => ⟨.inl rfl, by decide, .inl (by decide)⟩
  have answers := (agreement_of_run some run).2
  constructor
  · exact (answers (.add "b".toList false 3)
      fun _ => ⟨.inr (by decide), by decide, .inl (by decide)⟩).1
  · exact (answers (.add "c".toList true 7)
      fun _ => ⟨.inr (by decide), by decide, .inr (by decide)⟩).1

/-- The cache is full, and then only one of the two makes room. -/
theorem not_agree_full :
    ¬ ∀ (sizeLimit : Int) (calls : List (Call Bool)) (both : Both Bool),
      Run (system some sizeLimit) anyStep calls both → both.Agree := by
  intro agree
  have run : Run (system some 6) anyStep
      ([] ++ [.add "a".toList true 6] ++ [.add "b".toList false 6]) _ :=
    (Run.start.snoc trivial trivial).snoc trivial trivial
  exact absurd (agree 6 _ _ run "a".toList) (by decide)

end Both

end DistributedRdf.PersistentCache
