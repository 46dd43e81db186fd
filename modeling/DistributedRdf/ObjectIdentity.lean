import DistributedRdf.DependencyDetection
import DistributedRdf.ObjectRegistry
import Mathlib.Data.FinEnum

namespace DistributedRdf.Loader

open Java Engine Execution Probing Application Int32 Option List FinEnum

/-!
# When codes identify objects

A code identifies an object as long as every search for the object ends where
the object is stored, and as long as the code of null is not given to an object
as well.  `identifiesObjects_iff` states this for every sequence of calls; what
relates codes to objects and to data holds in all of them.
-/

variable {Object : Type u}

/-- The object, or null, was passed to a task under the code. -/
def Passed
    (history : List (Event Object))
    (o : Option Object)
    (code : Int32) : Prop :=
  ∃ dataId, .parameter o code dataId ∈ history

/-- A task or the main program accessed the object as the given datum. -/
inductive Uses (history : List (Event Object)) : Option Object → Nat → Prop where
  | parameter
      (member : .parameter o code (some dataId) ∈ history) :
      Uses history o dataId
  | access
      (member : .access o code (some dataId) internal ∈ history) :
      Uses history (some o) dataId

/-- What the runtime may rely on. -/
structure IdentifiesObjects (history : List (Event Object)) : Prop where
  /-- One code for each object, and no two objects with one code. -/
  codes :
    ∀ o other code otherCode,
      Passed history o code → Passed history other otherCode →
        (code = otherCode ↔ o = other)
  /-- An object that was passed to a task is found under its code. -/
  recognised :
    ∀ before after o found dataId internal,
      history = before ++ .access o found dataId internal :: after →
        ∀ code, Passed before (some o) code → found = some code
  registered :
    ∀ o code dataId, .parameter o code dataId ∈ history → dataId ≠ none
  /-- Two accesses concern one datum exactly when they concern one object. -/
  data :
    ∀ o other dataId otherId,
      Uses history o dataId → Uses history other otherId →
        (dataId = otherId ↔ o = other)
  ends : ∀ o, .endless o ∉ history

/--
Counting from the hash code, the search stops at a code, and the object is not
stored under another one.
-/
def Finds
    (registry : ObjectRegistry Object)
    (o : Object)
    (hashCode code : Int32) : Prop :=
  StopsAt (· + 1) registry.appTaskObjects.lookup o hashCode code ∧
    ∀ stored, registry.appTaskObjects.lookup stored = some o → stored = code

/--
The object's hash code still leads to where the object is stored, or to a free
code if it is not stored; and only one of null and the other objects gets the
largest integer.
-/
def Permitted (application : Application Object) : ObjectCall Object → Prop
  | .newObjectParameter none _ _ =>
      application.registry.appTaskObjects.lookup maxValue = none
  | .newObjectParameter (some o) hashCode _ =>
      ∃ code, Finds application.registry o hashCode code ∧
        (code = maxValue →
          ∀ nullCode, ¬ Passed application.history none nullCode)
  | .newObjectAccess (some o) hashCode _ _ =>
      ∃ code, Finds application.registry o hashCode code
  | .serializeLocally (some o) hashCode =>
      ∃ code, Finds application.registry o hashCode code
  | .getInternalObject (some o) hashCode =>
      ∃ code, Finds application.registry o hashCode code
  | _ => True

/-!
## The search
-/

theorem card_int32 [Fintype Int32] : Fintype.card Int32 = 2 ^ 32 := by
  have sameCard : Fintype.card Int32 = Fintype.card (BitVec 32) :=
    Fintype.card_congr
      ⟨toBitVec, ofBitVec, fun _ => rfl, fun _ => rfl⟩
  rw [sameCard, ← card_eq_fintypeCard, card_bitVec]

instance fintypeInt32 : Fintype Int32 :=
  Fintype.ofEquiv (BitVec 32)
    ⟨ofBitVec, toBitVec, fun _ => rfl, fun _ => rfl⟩

variable {registry : ObjectRegistry Object}

/-- The loop has a result exactly when it stops. -/
theorem search_eq_some_iff
    [DecidableEq Object]
    {o : Object}
    {hashCode code : Int32} :
    registry.search o hashCode = some code ↔
      StopsAt (· + 1) registry.appTaskObjects.lookup o hashCode code := by
  rw [ObjectRegistry.search, ← card_int32, probe_card_eq_some_iff]

/-!
## The data of the codes
-/

/-- What an access under a code adds to the provider. -/
structure CodeRegistered
    (provider after : DataInfoProvider)
    (code : Int)
    (dataId : Nat) : Prop where
  wellFormed : after.WellFormed
  known : after.codeToId.lookup code = some dataId
  kept :
    ∀ other id, provider.codeToId.lookup other = some id →
      after.codeToId.lookup other = some id
  isNew :
    ∀ other id, after.codeToId.lookup other = some id →
      provider.codeToId.lookup other = some id ∨
        other = code ∧ id = dataId ∧
          ∀ older, provider.codeToId.lookup older ≠ some id

theorem codeToId_willAccess
    (provider : DataInfoProvider)
    (mode : AccessMode)
    (dataId : Nat) :
    (provider.willAccess mode dataId).state.codeToId =
      provider.codeToId := by
  unfold DataInfoProvider.willAccess
  split
  · rfl
  · rfl

variable {provider : DataInfoProvider}

theorem registerObjectAccess_code
    (wellFormed : provider.WellFormed)
    (mode : AccessMode)
    (code : Int) :
    ∃ after access,
      provider.registerObjectAccess mode code = .returned after access ∧
        CodeRegistered provider after code access.dataId := by
  cases known : provider.codeToId.lookup code with
  | some aoId =>
      obtain ⟨datum, found⟩ :=
        isSome_iff_exists.mp (wellFormed.coded _ aoId known)
      obtain ⟨after, access, accessed, registered⟩ :=
        DataInfoProvider.willAccess_registered wellFormed found mode
      have sameCodes : after.codeToId = provider.codeToId := by
        have unchanged := codeToId_willAccess provider mode aoId
        rwa [accessed] at unchanged
      refine ⟨after, access,
        by rw [DataInfoProvider.registerObjectAccess, known]; exact accessed,
        registered.wellFormed, ?_, ?_, ?_⟩
      · rw [sameCodes, known, registered.accessed]
      · intro other id isCoded
        rwa [sameCodes]
      · intro other id isCoded
        rw [sameCodes] at isCoded
        exact .inl isCoded
  | none =>
      obtain ⟨after, access, accessed, registered⟩ :=
        DataInfoProvider.willAccess_added wellFormed (wellFormed.addCode code)
          rfl mode
      have newCodes : after.codeToId =
          provider.codeToId.insert code provider.nextDataId := by
        have unchanged := codeToId_willAccess
          { provider.addData none with
            codeToId := provider.codeToId.insert code provider.nextDataId }
          mode provider.nextDataId
        rwa [accessed] at unchanged
      refine ⟨after, access,
        by rw [DataInfoProvider.registerObjectAccess, known]; exact accessed,
        registered.wellFormed, ?_, ?_, ?_⟩
      · rw [newCodes, AList.lookup_insert, registered.accessed]
      · intro other id isCoded
        have different : other ≠ code := by
          rintro rfl
          simp [known] at isCoded
        rwa [newCodes, AList.lookup_insert_ne different]
      · intro other id isCoded
        rw [newCodes] at isCoded
        by_cases same : other = code
        · subst other
          rw [AList.lookup_insert, some.injEq] at isCoded
          subst isCoded
          refine .inr ⟨rfl, registered.accessed.symm, ?_⟩
          intro older isOlder
          obtain ⟨datum, found⟩ := isSome_iff_exists.mp
            (wellFormed.coded older _ isOlder)
          have bound := (wellFormed.identified _ datum found).2
          exact absurd bound (Nat.lt_irrefl _)
        · rw [AList.lookup_insert_ne same] at isCoded
          exact .inl isCoded

/-- No datum has two codes. -/
def CodesApart (provider : DataInfoProvider) : Prop :=
  ∀ code other dataId, provider.codeToId.lookup code = some dataId →
    provider.codeToId.lookup other = some dataId → code = other

variable {dataId : Nat}

theorem CodeRegistered.apart
    {provider after : DataInfoProvider}
    {code : Int}
    (registered : CodeRegistered provider after code dataId)
    (apart : CodesApart provider) :
    CodesApart after := by
  intro first second id isFirst isSecond
  rcases registered.isNew first id isFirst with
    olderFirst | ⟨rfl, rfl, fresh⟩
  · rcases registered.isNew second id isSecond with
      olderSecond | ⟨rfl, rfl, fresh⟩
    · exact apart first second id olderFirst olderSecond
    · exact absurd olderFirst (fresh first)
  · rcases registered.isNew second _ isSecond with
      olderSecond | ⟨rfl, _, _⟩
    · exact absurd olderSecond (fresh second)
    · rfl

/-!
## What holds in every sequence of calls
-/

/-- The registry and the provider reflect the history. -/
structure Consistent (application : Application Object) : Prop where
  stored :
    ∀ code o, application.registry.appTaskObjects.lookup code = some o ↔
      Passed application.history (some o) code
  null :
    ∀ code, Passed application.history none code → code = maxValue
  wellFormed : application.DIP.WellFormed
  apart : CodesApart application.DIP
  parameters :
    ∀ o code dataId, .parameter o code dataId ∈ application.history →
      ∃ id, dataId = some id ∧
        application.DIP.codeToId.lookup code.toInt = some id
  accesses :
    ∀ o found id internal,
      .access o found (some id) internal ∈ application.history →
        ∃ code, Passed application.history (some o) code ∧
          application.DIP.codeToId.lookup code.toInt = some id

variable
  {history : List (Event Object)}
  {event : Event Object}
  {o : Option Object}
  {code : Int32}

theorem passed_concat :
    Passed (history ++ [event]) o code ↔
      Passed history o code ∨ ∃ dataId, event = .parameter o code dataId := by
  simp only [Passed, mem_append, mem_singleton, exists_or, eq_comm]

theorem consistent_new : Consistent (.new : Application Object) where
  stored := by simp [new, ObjectRegistry.new, Passed]
  null := by simp [new, Passed]
  wellFormed := DataInfoProvider.wellFormed_new
  apart := by simp [CodesApart, new, DataInfoProvider.new]
  parameters := by simp [new]
  accesses := by simp [new]

/-- An access under a code that was passed before. -/
theorem Consistent.logAccess
    {application : Application Object}
    {o : Object}
    {found : Option Int32}
    {dataId : Option Nat}
    {internal : Option Object}
    (consistent : Consistent application)
    (sameObjects :
      registry.appTaskObjects = application.registry.appTaskObjects)
    (wellFormed : provider.WellFormed)
    (apart : CodesApart provider)
    (kept :
      ∀ code id, application.DIP.codeToId.lookup code = some id →
        provider.codeToId.lookup code = some id)
    (requested :
      ∀ id, dataId = some id →
        ∃ code, Passed application.history (some o) code ∧
          provider.codeToId.lookup code.toInt = some id) :
    Consistent
      ({ application with registry := registry, DIP := provider }.log
        (.access o found dataId internal)) := by
  have samePassed
      (object : Option Object)
      (code : Int32) :
      Passed (application.history ++ [.access o found dataId internal])
          object code ↔
        Passed application.history object code := by
    simp [passed_concat]
  constructor
  · intro code object
    rw [log, samePassed]
    exact (sameObjects ▸ consistent.stored code object)
  · intro code passed
    exact consistent.null code ((samePassed none code).mp passed)
  · exact wellFormed
  · exact apart
  · intro object code otherId member
    have older : .parameter object code otherId ∈ application.history := by
      simpa [log] using member
    rcases consistent.parameters object code otherId older with
      ⟨id, isId, known⟩
    exact ⟨id, isId, kept _ id known⟩
  · intro object otherFound id otherInternal member
    simp only [log, mem_append, mem_singleton,
      Event.access.injEq] at member
    simp only [log, samePassed]
    rcases member with older | ⟨rfl, _, isId, _⟩
    · rcases consistent.accesses object otherFound id otherInternal older with
        ⟨code, passed, known⟩
      exact ⟨code, passed, kept _ id known⟩
    · exact requested id isId.symm

theorem Consistent.logEndless
    {application : Application Object}
    (consistent : Consistent application)
    (o : Object) :
    Consistent (application.log (.endless o)) := by
  have samePassed
      (object : Option Object)
      (code : Int32) :
      Passed (application.history ++ [.endless o]) object code ↔
        Passed application.history object code := by
    simp [passed_concat]
  constructor
  · intro code object
    rw [log, samePassed]
    exact consistent.stored code object
  · intro code passed
    exact consistent.null code ((samePassed none code).mp passed)
  · exact consistent.wellFormed
  · exact consistent.apart
  · intro object code dataId member
    exact consistent.parameters object code dataId
      (by simpa [log] using member)
  · intro object found id internal member
    simp only [log, samePassed]
    exact consistent.accesses object found id internal
      (by simpa [log] using member)

/-- An object or null is passed under a code that is free or its own. -/
theorem Consistent.logParameter
    {application : Application Object}
    (consistent : Consistent application)
    (stored :
      ∀ other object, registry.appTaskObjects.lookup other = some object ↔
        application.registry.appTaskObjects.lookup other = some object ∨
          other = code ∧ o = some object)
    (null : o = none → code = maxValue)
    (registered :
      CodeRegistered application.DIP provider code.toInt dataId) :
    Consistent
      ({ application with registry := registry, DIP := provider }.log
        (.parameter o code (some dataId))) := by
  constructor
  · intro other object
    rw [log, passed_concat, stored, consistent.stored]
    simp [eq_comm, and_comm]
  · intro other passed
    rcases passed_concat.mp passed with older | ⟨otherId, same⟩
    · exact consistent.null other older
    · cases same
      exact null rfl
  · exact registered.wellFormed
  · exact registered.apart consistent.apart
  · intro object other otherId member
    rcases mem_append.mp member with older | newest
    · rcases consistent.parameters object other otherId older with
        ⟨id, isId, known⟩
      exact ⟨id, isId, registered.kept _ id known⟩
    · cases mem_singleton.mp newest
      exact ⟨dataId, rfl, registered.known⟩
  · intro object found id internal member
    have older :
        .access object found (some id) internal ∈ application.history := by
      simpa [log] using member
    rcases consistent.accesses object found id internal older with
      ⟨other, passed, known⟩
    exact ⟨other, passed_concat.mpr (.inl passed), registered.kept _ id known⟩

/-!
## What one call does
-/

section Calls

theorem registerAccess_code
    {application : Application Object}
    (wellFormed : application.DIP.WellFormed)
    (mode : AccessMode)
    (code : Int32) :
    ∃ provider dataId,
      application.registerAccess mode code =
        ({ application with DIP := provider }, some dataId) ∧
      CodeRegistered application.DIP provider code.toInt dataId := by
  rcases registerObjectAccess_code wellFormed mode code.toInt with
    ⟨after, access, accessed, registered⟩
  exact ⟨after, access.dataId,
    by simp [registerAccess, accessed, Outcome.value?], registered⟩

variable {application : Application Object}

/-- The call has passed the object or null under the code. -/
def HasPassed
    (application after : Application Object)
    (o : Option Object)
    (code : Int32) : Prop :=
  Consistent after ∧
    ∃ dataId, after.history = application.history ++ [.parameter o code dataId]

/-- The call has looked the object up with the given result. -/
def HasLookedUp
    (application after : Application Object)
    (o : Object)
    (found : Option Int32) : Prop :=
  Consistent after ∧
    ∃ dataId internal,
      after.history =
        application.history ++ [.access o found dataId internal]

variable {o : Object}

theorem requestObject_hasLookedUp
    (consistent : Consistent application)
    (validValue : Bool)
    (oUpdated : Option Object)
    (isHeld : application.registry.appTaskObjects.lookup code = some o) :
    HasLookedUp application
      (application.requestObject validValue oUpdated o code) o (some code) := by
  unfold requestObject
  split
  · exact ⟨consistent.logAccess rfl consistent.wellFormed consistent.apart
      (fun _ _ => id) (by simp), none, none, rfl⟩
  · rcases registerAccess_code consistent.wellFormed .RW code with
      ⟨provider, dataId, accessed, registered⟩
    simp only [accessed]
    refine ⟨consistent.logAccess ?_ registered.wellFormed
      (registered.apart consistent.apart) registered.kept ?_,
      some dataId, none, rfl⟩
    · cases oUpdated <;> rfl
    · intro id isId
      obtain rfl := some.inj isId
      exact ⟨code, (consistent.stored code o).mp isHeld, registered.known⟩

theorem useInternalObject_hasLookedUp
    (consistent : Consistent application)
    (o : Object)
    (code : Int32) :
    HasLookedUp application (application.useInternalObject o code) o
      (some code) :=
  ⟨consistent.logAccess rfl consistent.wellFormed consistent.apart
    (fun _ _ => id) (by simp), none, _, rfl⟩

variable [DecidableEq Object]

theorem passParameter_null
    (consistent : Consistent application)
    (hashCode : Int32)
    (mode : AccessMode) :
    HasPassed application (application.passParameter none hashCode mode) none
      maxValue := by
  rcases registerAccess_code consistent.wellFormed mode maxValue with
    ⟨provider, dataId, accessed, registered⟩
  simp only [passParameter, ObjectRegistry.newObjectParameter,
    accessed]
  exact ⟨consistent.logParameter (by simp) (fun _ => rfl) registered,
    some dataId, rfl⟩

variable {hashCode code : Int32}

theorem passParameter_object
    (consistent : Consistent application)
    (mode : AccessMode)
    (stops :
      StopsAt (· + 1) application.registry.appTaskObjects.lookup o hashCode
        code) :
    HasPassed application (application.passParameter (some o) hashCode mode)
      (some o) code := by
  have searched := search_eq_some_iff.mpr stops
  simp only [passParameter, ObjectRegistry.newObjectParameter,
    searched, map_some]
  rcases stops with ⟨steps, stops⟩
  rcases stops.found_free_or_held with isFree | isHeld
  · rcases @registerAccess_code _
      { application with registry := application.registry.register code o }
      consistent.wellFormed mode code with
      ⟨provider, dataId, accessed, registered⟩
    simp only [isFree, accessed]
    refine ⟨consistent.logParameter ?_ (by simp) registered,
      some dataId, rfl⟩
    intro other object
    by_cases same : other = code
    · subst same
      simp [ObjectRegistry.register, isFree]
    · simp [ObjectRegistry.register, AList.lookup_insert_ne same, same]
  · rcases registerAccess_code consistent.wellFormed mode code with
      ⟨provider, dataId, accessed, registered⟩
    simp only [isHeld, accessed]
    refine ⟨consistent.logParameter ?_ (by simp) registered,
      some dataId, rfl⟩
    intro other object
    constructor
    · exact .inl
    · rintro (held | ⟨rfl, same⟩)
      · exact held
      · rwa [← same]

theorem passParameter_endless
    (never :
      ∀ code, ¬ StopsAt (· + 1) application.registry.appTaskObjects.lookup o
        hashCode code)
    (mode : AccessMode) :
    application.passParameter (some o) hashCode mode =
      application.log (.endless o) := by
  have searched : application.registry.search o hashCode = none := by
    rw [eq_none_iff_forall_ne_some]
    intro code isSome
    exact never code (search_eq_some_iff.mp isSome)
  simp only [passParameter, ObjectRegistry.newObjectParameter,
    searched, map_none]

theorem lookUp_endless
    (never :
      ∀ code, ¬ StopsAt (· + 1) application.registry.appTaskObjects.lookup o
        hashCode code)
    (proceed : Object → Int32 → Application Object) :
    application.lookUp (some o) hashCode proceed =
      application.log (.endless o) := by
  have searched : application.registry.search o hashCode = none := by
    rw [eq_none_iff_forall_ne_some]
    intro code isSome
    exact never code (search_eq_some_iff.mp isSome)
  simp only [lookUp, ObjectRegistry.taskObjectCode, searched,
    map_none]

/-- What the search found is what the method goes on with. -/
theorem lookUp_object
    (consistent : Consistent application)
    {proceed : Object → Int32 → Application Object}
    (proceeds :
      application.registry.appTaskObjects.lookup code = some o →
        HasLookedUp application (proceed o code) o (some code))
    (stops :
      StopsAt (· + 1) application.registry.appTaskObjects.lookup o hashCode
        code) :
    HasLookedUp application (application.lookUp (some o) hashCode proceed) o
      (if application.registry.appTaskObjects.lookup code = none then none
        else some code) := by
  have searched := search_eq_some_iff.mpr stops
  simp only [lookUp, ObjectRegistry.taskObjectCode, searched,
    map_some]
  rcases stops with ⟨steps, stops⟩
  rcases stops.found_free_or_held with isFree | isHeld
  · simp only [isFree, if_true]
    exact ⟨consistent.logAccess rfl consistent.wellFormed consistent.apart
      (fun _ _ => id) (by simp), none, none, rfl⟩
  · simpa only [isHeld, reduceCtorEq, if_false] using proceeds isHeld

end Calls

/-!
## When a call keeps the codes apart
-/

theorem recognised_concat_iff :
    (∀ before after o found dataId internal,
      history ++ [event] =
          before ++ .access o found dataId internal :: after →
        ∀ code, Passed before (some o) code → found = some code) ↔
      (∀ before after o found dataId internal,
        history = before ++ .access o found dataId internal :: after →
          ∀ code, Passed before (some o) code → found = some code) ∧
      ∀ o found dataId internal, event = .access o found dataId internal →
        ∀ code, Passed history (some o) code → found = some code := by
  constructor
  · intro recognised
    constructor
    · rintro before after o found dataId internal rfl
      exact recognised before (after ++ [event]) o found dataId internal
        (by simp)
    · rintro o found dataId internal rfl
      exact recognised history [] o found dataId internal rfl
  · rintro ⟨recognised, newest⟩ before after o found dataId internal split
    rcases eq_nil_or_concat after with rfl | ⟨rest, last, rfl⟩
    · obtain ⟨rfl, same⟩ := append_inj' split rfl
      exact newest o found dataId internal (singleton_inj.mp same)
    · have longer :
          history ++ [event] =
            (before ++ .access o found dataId internal :: rest) ++ [last] := by
        simpa using split
      have earlier := (append_inj' longer rfl).1
      exact recognised before rest o found dataId internal earlier

/-- Objects are told apart by their data as soon as they are by their codes. -/
theorem Consistent.identifiesObjects
    {application : Application Object}
    (consistent : Consistent application)
    (codes :
      ∀ o other code otherCode,
        Passed application.history o code →
          Passed application.history other otherCode →
            (code = otherCode ↔ o = other))
    (recognised :
      ∀ before after o found dataId internal,
        application.history =
            before ++ .access o found dataId internal :: after →
          ∀ code, Passed before (some o) code → found = some code)
    (ends : ∀ o, .endless o ∉ application.history) :
    IdentifiesObjects application.history := by
  have coded
      {o : Option Object}
      {dataId : Nat}
      (uses : Uses application.history o dataId) :
      ∃ code, Passed application.history o code ∧
        application.DIP.codeToId.lookup code.toInt = some dataId := by
    cases uses with
    | parameter member =>
        rcases consistent.parameters _ _ _ member with ⟨id, isId, known⟩
        obtain rfl := some.inj isId
        exact ⟨_, ⟨_, member⟩, known⟩
    | access member => exact consistent.accesses _ _ _ _ member
  refine ⟨codes, recognised, ?_, ?_, ends⟩
  · rintro o code dataId member rfl
    rcases consistent.parameters o code none member with ⟨id, isId, _⟩
    cases isId
  · intro o other dataId otherId uses otherUses
    rcases coded uses with ⟨code, passed, known⟩
    rcases coded otherUses with ⟨otherCode, otherPassed, otherKnown⟩
    rw [← codes o other code otherCode passed otherPassed]
    constructor
    · rintro rfl
      exact toInt_inj.mp (consistent.apart _ _ _ known otherKnown)
    · rintro rfl
      exact some.inj (known.symm.trans otherKnown)

section Steps

variable {application after : Application Object}

theorem identifies_passed_iff
    {o : Option Object}
    (identifies : IdentifiesObjects application.history)
    (passed : HasPassed application after o code) :
    IdentifiesObjects after.history ↔
      ∀ other otherCode, Passed application.history other otherCode →
        (code = otherCode ↔ o = other) := by
  rcases passed with ⟨consistent, dataId, logged⟩
  have newest : Passed after.history o code := by
    rw [logged]
    exact passed_concat.mpr (.inr ⟨dataId, rfl⟩)
  constructor
  · intro still other otherCode otherPassed
    refine still.codes o other code otherCode newest ?_
    rw [logged]
    exact passed_concat.mpr (.inl otherPassed)
  · intro apart
    refine consistent.identifiesObjects ?_ ?_ ?_
    · intro first second firstCode secondCode firstPassed secondPassed
      rw [logged, passed_concat] at firstPassed secondPassed
      rcases firstPassed with firstOlder | ⟨_, firstNew⟩
      · rcases secondPassed with secondOlder | ⟨_, secondNew⟩
        · exact identifies.codes first second firstCode secondCode firstOlder
            secondOlder
        · cases secondNew
          rw [eq_comm, apart first firstCode firstOlder, eq_comm]
      · cases firstNew
        rcases secondPassed with secondOlder | ⟨_, secondNew⟩
        · exact apart second secondCode secondOlder
        · cases secondNew
          simp
    · rw [logged]
      exact recognised_concat_iff.mpr
        ⟨identifies.recognised, fun _ _ _ _ same => by cases same⟩
    · intro object member
      rw [logged] at member
      exact identifies.ends object (by simpa using member)

variable {o : Object}

theorem identifies_lookedUp_iff
    {found : Option Int32}
    (identifies : IdentifiesObjects application.history)
    (lookedUp : HasLookedUp application after o found) :
    IdentifiesObjects after.history ↔
      ∀ code, Passed application.history (some o) code →
        found = some code := by
  rcases lookedUp with ⟨consistent, dataId, internal, logged⟩
  constructor
  · intro still
    have recognised := still.recognised
    rw [logged] at recognised
    exact (recognised_concat_iff.mp recognised).2 o found dataId internal rfl
  · intro finds
    refine consistent.identifiesObjects ?_ ?_ ?_
    · intro first second firstCode secondCode firstPassed secondPassed
      rw [logged] at firstPassed secondPassed
      exact identifies.codes first second firstCode secondCode
        (by simpa [passed_concat] using firstPassed)
        (by simpa [passed_concat] using secondPassed)
    · rw [logged]
      refine recognised_concat_iff.mpr ⟨identifies.recognised, ?_⟩
      intro object otherFound otherId otherInternal same
      cases same
      exact finds
    · intro object member
      rw [logged] at member
      exact identifies.ends object (by simpa using member)

theorem not_identifies_endless
    (application : Application Object)
    (o : Object) :
    ¬ IdentifiesObjects (application.log (.endless o)).history := by
  intro identifies
  exact identifies.ends o (by simp [log])

variable [DecidableEq Object]

/-- A method that looks an object up has to find it where it is stored. -/
theorem identifies_lookUp_iff
    (consistent : Consistent application)
    (identifies : IdentifiesObjects application.history)
    {hashCode : Int32}
    {proceed : Object → Int32 → Application Object}
    (proceeds :
      ∀ code, application.registry.appTaskObjects.lookup code = some o →
        HasLookedUp application (proceed o code) o (some code)) :
    IdentifiesObjects
        (application.lookUp (some o) hashCode proceed).history ↔
      ∃ code, Finds application.registry o hashCode code := by
  by_cases stopping :
      ∃ code, StopsAt (· + 1) application.registry.appTaskObjects.lookup o
        hashCode code
  · rcases stopping with ⟨code, stops⟩
    rw [identifies_lookedUp_iff identifies
      (lookUp_object consistent (proceeds code) stops)]
    constructor
    · intro finds
      refine ⟨code, stops, ?_⟩
      intro stored held
      have found := finds stored ((consistent.stored stored o).mp held)
      split at found
      · cases found
      · exact (some.inj found).symm
    · rintro ⟨other, otherStops, alone⟩ stored passed
      have held := (consistent.stored stored o).mpr passed
      obtain rfl := stops.unique otherStops
      obtain rfl := alone stored held
      simp [held]
  · have never := not_exists.mp stopping
    rw [lookUp_endless never]
    constructor
    · intro still
      exact absurd still (not_identifies_endless application o)
    · rintro ⟨code, stops, _⟩
      exact absurd stops (never code)

theorem identifies_passNull_iff
    (consistent : Consistent application)
    (identifies : IdentifiesObjects application.history)
    (hashCode : Int32)
    (mode : AccessMode) :
    IdentifiesObjects
        (application.passParameter none hashCode mode).history ↔
      application.registry.appTaskObjects.lookup maxValue = none := by
  rw [identifies_passed_iff identifies
    (passParameter_null consistent hashCode mode)]
  constructor
  · intro apart
    rw [eq_none_iff_forall_ne_some]
    intro object held
    have passed := (consistent.stored _ object).mp held
    exact absurd ((apart _ _ passed).mp rfl) (by simp)
  · intro isFree other otherCode passed
    cases other with
    | none => simp [consistent.null otherCode passed]
    | some object =>
        have held := (consistent.stored otherCode object).mpr passed
        have different : maxValue ≠ otherCode := by
          rintro rfl
          simp [isFree] at held
        simp [different]

theorem identifies_passObject_iff
    (consistent : Consistent application)
    (identifies : IdentifiesObjects application.history)
    (o : Object)
    (hashCode : Int32)
    (mode : AccessMode) :
    IdentifiesObjects
        (application.passParameter (some o) hashCode mode).history ↔
      ∃ code, Finds application.registry o hashCode code ∧
        (code = maxValue →
          ∀ nullCode, ¬ Passed application.history none nullCode) := by
  by_cases stopping :
      ∃ code, StopsAt (· + 1) application.registry.appTaskObjects.lookup o
        hashCode code
  · rcases stopping with ⟨code, stops⟩
    rw [identifies_passed_iff identifies
      (passParameter_object consistent mode stops)]
    constructor
    · intro apart
      refine ⟨code, ⟨stops, ?_⟩, ?_⟩
      · intro stored held
        have passed := (consistent.stored stored o).mp held
        exact ((apart _ _ passed).mpr rfl).symm
      · rintro rfl nullCode passed
        have isMax := consistent.null nullCode passed
        exact absurd ((apart _ _ passed).mp isMax.symm) (by simp)
    · rintro ⟨other, ⟨otherStops, alone⟩, noNull⟩ object objectCode passed
      obtain rfl := stops.unique otherStops
      cases object with
      | none =>
          have isMax := consistent.null objectCode passed
          have different : code ≠ objectCode := by
            rintro rfl
            exact noNull isMax _ passed
          simp [different]
      | some object =>
          have held := (consistent.stored objectCode object).mpr passed
          constructor
          · rintro rfl
            rcases stops with ⟨steps, stops⟩
            rcases stops.found_free_or_held with isFree | isHeld
            · simp [isFree] at held
            · exact isHeld.symm.trans held
          · intro same
            obtain rfl := some.inj same
            exact (alone objectCode held).symm
  · have never := not_exists.mp stopping
    rw [passParameter_endless never]
    constructor
    · intro still
      exact absurd still (not_identifies_endless application o)
    · rintro ⟨code, ⟨stops, _⟩, _⟩
      exact absurd stops (never code)

end Steps

/-!
## All sequences of calls
-/

section Sequences

variable [DecidableEq Object] {application : Application Object}

section

variable (consistent : Consistent application)

include consistent

theorem consistent_lookUp
    (o : Option Object)
    (hashCode : Int32)
    {proceed : Object → Int32 → Application Object}
    (proceeds :
      ∀ object code,
        application.registry.appTaskObjects.lookup code = some object →
          HasLookedUp application (proceed object code) object (some code)) :
    Consistent (application.lookUp o hashCode proceed) := by
  cases o with
  | none => exact consistent
  | some object =>
      by_cases stopping :
          ∃ code, StopsAt (· + 1) application.registry.appTaskObjects.lookup
            object hashCode code
      · rcases stopping with ⟨code, stops⟩
        exact (lookUp_object consistent (proceeds object code) stops).1
      · rw [lookUp_endless (not_exists.mp stopping)]
        exact consistent.logEndless object

theorem consistent_passParameter
    (o : Option Object)
    (hashCode : Int32)
    (mode : AccessMode) :
    Consistent (application.passParameter o hashCode mode) := by
  cases o with
  | none => exact (passParameter_null consistent hashCode mode).1
  | some object =>
      by_cases stopping :
          ∃ code, StopsAt (· + 1) application.registry.appTaskObjects.lookup
            object hashCode code
      · rcases stopping with ⟨code, stops⟩
        exact (passParameter_object consistent mode stops).1
      · rw [passParameter_endless (not_exists.mp stopping)]
        exact consistent.logEndless object

theorem consistent_call
    (call : ObjectCall Object) :
    Consistent (application.call call) := by
  cases call with
  | newObjectParameter o hashCode mode =>
      exact consistent_passParameter consistent o hashCode mode
  | newObjectAccess o hashCode validValue oUpdated =>
      exact consistent_lookUp consistent o hashCode fun _ _ =>
        requestObject_hasLookedUp consistent validValue oUpdated
  | serializeLocally o hashCode | getInternalObject o hashCode =>
      exact consistent_lookUp consistent o hashCode fun object code _ =>
        useInternalObject_hasLookedUp consistent object code

/-- A call keeps the codes apart exactly when it is permitted. -/
theorem identifies_call_iff
    (identifies : IdentifiesObjects application.history)
    (call : ObjectCall Object) :
    IdentifiesObjects (application.call call).history ↔
      Permitted application call := by
  cases call with
  | newObjectParameter o hashCode mode =>
      cases o with
      | none =>
          exact identifies_passNull_iff consistent identifies hashCode mode
      | some object =>
          exact identifies_passObject_iff consistent identifies object hashCode
            mode
  | newObjectAccess o hashCode validValue oUpdated =>
      cases o with
      | none => exact iff_of_true identifies trivial
      | some object =>
          exact identifies_lookUp_iff consistent identifies fun _ =>
            requestObject_hasLookedUp consistent validValue oUpdated
  | serializeLocally o _ | getInternalObject o _ =>
      cases o with
      | none => exact iff_of_true identifies trivial
      | some object =>
          exact identifies_lookUp_iff consistent identifies fun code _ =>
            useInternalObject_hasLookedUp consistent object code

end

variable (calls : List (ObjectCall Object))

theorem run_calls :
    Run (system Object) anyStep calls
      ((system Object).after calls) := by
  induction calls using reverseRecOn with
  | nil => exact .start
  | append_singleton earlier call hypothesis =>
      have longer :
          Run (system Object) anyStep (earlier ++ [call])
            (((system Object).after earlier).call call) :=
        hypothesis.snoc trivial trivial
      rwa [TransitionSystem.after, foldl_append]

variable {calls}

theorem consistent_of_run
    (run : Run (system Object) anyStep calls application) :
    Consistent application := by
  induction run with
  | start => exact consistent_new
  | snoc _ _ _ hypothesis => exact consistent_call hypothesis _

end Sequences

theorem identifiesObjects_nil :
    IdentifiesObjects ([] : List (Event Object)) :=
  consistent_new.identifiesObjects (by simp [new, Passed])
    (by simp [new]) (by simp [new])

/--
Codes identify objects after every call of a sequence exactly when every call
is permitted where it is made.
-/
theorem identifiesObjects_iff
    [DecidableEq Object]
    (calls : List (ObjectCall Object)) :
    (∀ before, before <+: calls →
      IdentifiesObjects ((system Object).after before).history) ↔
      Run (system Object) Permitted calls
        ((system Object).after calls) := by
  have exactly := @Run.holdsThroughout_iff _ _ (system Object)
    Permitted
    (fun application =>
      Consistent application ∧ IdentifiesObjects application.history)
    ⟨consistent_new, identifiesObjects_nil⟩
    (fun application call holds _ => by
      have still := consistent_call holds.1 call
      exact ⟨fun next =>
          (identifies_call_iff holds.1 holds.2 call).mp next.2,
        fun permitted =>
          ⟨still, (identifies_call_iff holds.1 holds.2 call).mpr permitted⟩⟩)
    calls _ (run_calls calls)
  rw [← exactly]
  constructor
  · intro identifies before reached isPrefix run
    obtain rfl := run.state_eq
    exact ⟨consistent_of_run run, identifies before isPrefix⟩
  · intro throughout before isPrefix
    exact (throughout before _ isPrefix (run_calls before)).2

/-- An object whose hash code has changed is taken for another one. -/
theorem not_identifiesObjects_modified :
    ¬ ∀ calls : List (ObjectCall Nat),
      IdentifiesObjects ((system Nat).after calls).history := by
  intro identifies
  have apart := (identifies
    [.newObjectParameter (some 0) 1 .W, .newObjectParameter (some 0) 2 .R]).codes
    (some 0) (some 0) 1 2 ⟨some 1, by decide +kernel⟩ ⟨some 2, by decide +kernel⟩
  exact absurd (apart.mpr rfl) (by decide)

end DistributedRdf.Loader
