import DistributedRdf.TaskDecorator
import Mathlib

namespace DistributedRdf.PyCompss

open Function List Globals Parameter List.Subset

open Words (Text)

/-!
# Calls of one task

The type that is inferred for the argument of a call stays in the dictionary of
the decorator and is used for the argument of the next call.  Only where that
type is treated like the one of a first call, the calls do not depend on each
other.
-/

/-!
## Types that are treated alike
-/

/-- Objects that have a file keep it. -/
def Globals.Extends (after before : Globals) : Prop :=
  ∀ objId, (before.objidToFilename objId).isSome →
    (after.objidToFilename objId).isSome

theorem Globals.Extends.trans
    {first second third : Globals}
    (later : third.Extends second)
    (earlier : second.Extends first) :
    third.Extends first := fun objId known =>
  later objId (earlier objId known)

theorem Globals.extends_update
    {globals : Globals}
    {objId : Nat}
    {fileName : Text}
    {taskObjects objsWrittenByMp : Nat → Bool} :
    Globals.Extends
      ⟨update globals.objidToFilename objId (some fileName),
        taskObjects, objsWrittenByMp⟩ globals := by
  intro other known
  by_cases same : other = objId
  · subst other
    simp
  · simpa [update_of_ne same] using known

section Types

variable
  {Value : Type}
  (python : Interpreter Value)
  (globals : Globals)
  (direction : Direction)
  (value : Value)

/-- A value with the type is turned into a file. -/
def WrittenToFile : CompssType → Prop
  | .object => True
  | .externalPsco =>
      direction ≠ .inDir ∨
        (globals.objidToFilename (python.id value)).isSome
  | .long => python.exceedsLong value = some true
  | _ => False

/-- A value with the type is submitted as a `long`. -/
def SentAsLong : CompssType → Prop
  | .int => python.exceedsInt value = some true
  | .long => python.exceedsLong value = some false
  | _ => False

/-- The value is submitted in the same way with both types. -/
def Interchangeable (used first : CompssType) : Prop :=
  python.typeOf value = .future ∨
    used = first ∨
    (WrittenToFile python globals direction value used ∧
      WrittenToFile python globals direction value first ∧
      holdsFutures python value = false) ∨
    (SentAsLong python value used ∧ SentAsLong python value first)

/-- The type that is submitted -/
def sentType (isFuture : Bool) (type : CompssType) : CompssType :=
  if type = .object ∨ isFuture then .file else type

variable
  {python globals direction value}
  {after : Globals}
  {mode : Direction}

theorem synchronize_extends
    {obj newObj : Value}
    (synchronized : synchronize python globals obj mode = some (newObj, after)) :
    after.Extends globals := by
  dsimp only [synchronize] at synchronized
  by_cases isTask : globals.taskObjects (python.id obj) = true
  · rw [if_pos isTask] at synchronized
    obtain ⟨fileName, -, rest⟩ := Option.bind_eq_some_iff.mp synchronized
    obtain ⟨found, -, done⟩ := Option.bind_eq_some_iff.mp rest
    obtain ⟨-, rfl⟩ := Prod.mk.inj (Option.some.inj done)
    exact extends_update
  · rw [if_neg isTask] at synchronized
    obtain ⟨-, rfl⟩ := Prod.mk.inj (Option.some.inj synchronized)
    exact fun _ known => known

theorem synchronizeAll_extends
    {objs newObjs : List Value}
    (synchronized :
      synchronizeAll python mode objs globals = some (newObjs, after)) :
    after.Extends globals := by
  induction objs generalizing globals newObjs with
  | nil =>
      obtain ⟨-, rfl⟩ := Prod.mk.inj (Option.some.inj synchronized)
      exact fun _ known => known
  | cons obj rest hypothesis =>
      obtain ⟨⟨newObj, next⟩, first, later⟩ :=
        Option.bind_eq_some_iff.mp synchronized
      obtain ⟨⟨others, last⟩, restDone, done⟩ :=
        Option.bind_eq_some_iff.mp later
      obtain ⟨-, rfl⟩ := Prod.mk.inj (Option.some.inj done)
      exact (hypothesis restDone).trans (synchronize_extends first)

/-- Neither the type nor the direction matters when a file is written. -/
theorem turnIntoFile_spec :
    ∃ written after,
      (∀ type direction,
        turnIntoFile python globals ⟨type, direction, value⟩ =
          (⟨type, direction, written⟩, after)) ∧
      ∀ next, after = some next → next.Extends globals := by
  unfold turnIntoFile
  cases known : globals.objidToFilename (python.id value) with
  | none =>
      cases isSerializable : python.serializable value with
      | false =>
          exact ⟨value, none, fun _ _ => by simp [known, isSerializable],
            by simp⟩
      | true =>
          refine ⟨python.str (python.fileOfId (python.id value)),
            some
              { globals with
                objidToFilename :=
                  update globals.objidToFilename (python.id value)
                    (some (python.fileOfId (python.id value)))
                taskObjects :=
                  update globals.taskObjects (python.id value) true },
            fun _ _ => by simp [known, isSerializable], ?_⟩
          rintro next ⟨⟩
          exact extends_update
  | some fileName =>
      cases written : globals.objsWrittenByMp (python.id value) with
      | false =>
          refine ⟨python.str fileName, some globals,
            fun _ _ => by simp [known, written], ?_⟩
          rintro next ⟨⟩
          exact fun _ known => known
      | true =>
          cases isSerializable : python.serializable value with
          | false =>
              exact ⟨value, none,
                fun _ _ => by simp [known, written, isSerializable], by simp⟩
          | true =>
              refine ⟨python.str fileName,
                some
                  { globals with
                    objsWrittenByMp :=
                      update globals.objsWrittenByMp (python.id value)
                        false },
                fun _ _ => by simp [known, written, isSerializable], ?_⟩
              rintro next ⟨⟩
              exact fun _ known => known

theorem not_holdsFutures_of_future
    (isFuture : python.typeOf value = .future) :
    holdsFutures python value = false := by
  simp [holdsFutures, isFuture]

theorem serialize_of_future
    (isFuture : python.typeOf value = .future)
    (type : CompssType) :
    serializeObjectIntoFile python globals ⟨type, direction, value⟩ =
      turnIntoFile python globals ⟨type, direction, value⟩ := by
  rw [serializeObjectIntoFile, if_pos (Or.inr isFuture)]
  simp only [not_holdsFutures_of_future isFuture, Bool.false_eq_true, if_false]

variable {type : CompssType}

theorem serialize_of_written
    (notFuture : python.typeOf value ≠ .future)
    (noFutures : holdsFutures python value = false)
    (written : WrittenToFile python globals direction value type) :
    serializeObjectIntoFile python globals ⟨type, direction, value⟩ =
      turnIntoFile python globals ⟨.object, direction, value⟩ := by
  cases type with
  | object => simp [serializeObjectIntoFile, noFutures]
  | externalPsco =>
      have isKnown :
          ¬ (direction = .inDir ∧
            globals.objidToFilename (python.id value) = none ∧
            globals.objsWrittenByMp (python.id value) = false) := by
        rintro ⟨isIn, unknown, -⟩
        rcases written with notIn | known
        · exact notIn isIn
        · simp [unknown] at known
      simp [serializeObjectIntoFile, notFuture, managePersistentObject, isKnown]
  | long =>
      have exceeds : python.exceedsLong value = some true := written
      simp [serializeObjectIntoFile, notFuture, exceeds]
  | boolean | char | int | double | string | file | psco => exact written.elim

theorem serialize_of_long
    (notFuture : python.typeOf value ≠ .future)
    (isLong : SentAsLong python value type) :
    serializeObjectIntoFile python globals ⟨type, direction, value⟩ =
      (⟨.long, direction, value⟩, some globals) := by
  cases type with
  | int =>
      have exceeds : python.exceedsInt value = some true := isLong
      simp [serializeObjectIntoFile, notFuture, exceeds]
  | long =>
      have fits : python.exceedsLong value = some false := isLong
      simp [serializeObjectIntoFile, notFuture, fits]
  | boolean | char | double | string | file | object | psco | externalPsco =>
      exact isLong.elim

/-- The direction stays, and objects keep their files. -/
theorem serialize_spec (type : CompssType) :
    ∃ final written after,
      serializeObjectIntoFile python globals ⟨type, direction, value⟩ =
        (⟨final, direction, written⟩, after) ∧
      ∀ next, after = some next → next.Extends globals := by
  have unchanged :
      ∀ final, ∃ final' written after,
        ((⟨final, direction, value⟩, some globals) :
          Argument Value × Option Globals) =
          (⟨final', direction, written⟩, after) ∧
        ∀ next, after = some next → next.Extends globals := by
    intro final
    refine ⟨final, value, some globals, rfl, ?_⟩
    rintro next ⟨⟩
    exact fun _ known => known
  have failed :
      ∀ final, ∃ final' written after,
        ((⟨final, direction, value⟩, none) :
          Argument Value × Option Globals) =
          (⟨final', direction, written⟩, after) ∧
        ∀ next, after = some next → next.Extends globals :=
    fun final => ⟨final, value, none, rfl, by simp⟩
  have toFile :
      ∀ final, ∃ final' written after,
        turnIntoFile python globals ⟨final, direction, value⟩ =
          (⟨final', direction, written⟩, after) ∧
        ∀ next, after = some next → next.Extends globals := by
    intro final
    obtain ⟨written, after, isFile, extend⟩ :=
      @turnIntoFile_spec Value python globals value
    exact ⟨final, written, after, isFile final direction, extend⟩
  unfold serializeObjectIntoFile
  split
  case isTrue =>
    split
    case isTrue =>
      split
      case h_1 => exact failed type
      case h_2 values next synchronized =>
        obtain ⟨written, after, isFile, extend⟩ :=
          @turnIntoFile_spec Value python next (python.newList values)
        exact ⟨type, written, after, isFile type direction,
          fun last isLast =>
            (extend last isLast).trans (synchronizeAll_extends synchronized)⟩
    case isFalse => exact toFile type
  case isFalse =>
    cases type with
    | externalPsco =>
        dsimp only [managePersistentObject]
        split
        case isTrue =>
          split
          case h_1 => exact failed .externalPsco
          case h_2 persistentId isId =>
            refine ⟨.externalPsco, persistentId, some globals, rfl, ?_⟩
            rintro next ⟨⟩
            exact fun _ known => known
        case isFalse => exact toFile .object
    | int =>
        dsimp only
        split
        case h_1 => exact failed .int
        case h_2 => exact unchanged .long
        case h_3 => exact unchanged .int
    | long =>
        dsimp only
        split
        case h_1 => exact failed .long
        case h_2 => exact toFile .object
        case h_3 => exact unchanged .long
    | object => exact unchanged .object
    | boolean => exact unchanged .boolean
    | char => exact unchanged .char
    | double => exact unchanged .double
    | string => exact unchanged .string
    | file => exact unchanged .file
    | psco => exact unchanged .psco

/-- Types that are interchangeable lead to the same submission. -/
theorem serialize_interchangeable
    {used first : CompssType}
    (alike : Interchangeable python globals direction value used first) :
    ∃ finalUsed finalFirst written after,
      serializeObjectIntoFile python globals ⟨used, direction, value⟩ =
        (⟨finalUsed, direction, written⟩, after) ∧
      serializeObjectIntoFile python globals ⟨first, direction, value⟩ =
        (⟨finalFirst, direction, written⟩, after) ∧
      sentType (python.typeOf value = .future) finalUsed =
        sentType (python.typeOf value = .future) finalFirst ∧
      ∀ next, after = some next → next.Extends globals := by
  have same :
      serializeObjectIntoFile python globals ⟨used, direction, value⟩ =
          serializeObjectIntoFile python globals ⟨first, direction, value⟩ →
        ∃ finalUsed finalFirst written after,
          serializeObjectIntoFile python globals ⟨used, direction, value⟩ =
            (⟨finalUsed, direction, written⟩, after) ∧
          serializeObjectIntoFile python globals ⟨first, direction, value⟩ =
            (⟨finalFirst, direction, written⟩, after) ∧
          sentType (python.typeOf value = .future) finalUsed =
            sentType (python.typeOf value = .future) finalFirst ∧
          ∀ next, after = some next → next.Extends globals := by
    intro equal
    obtain ⟨final, written, after, serialized, extend⟩ := serialize_spec first
    exact ⟨final, final, written, after, equal.trans serialized, serialized,
      rfl, extend⟩
  by_cases isFuture : python.typeOf value = .future
  · obtain ⟨written, after, isFile, extend⟩ :=
      @turnIntoFile_spec Value python globals value
    refine ⟨used, first, written, after, ?_, ?_, ?_, extend⟩
    · rw [serialize_of_future isFuture, isFile]
    · rw [serialize_of_future isFuture, isFile]
    · simp [sentType, isFuture]
  · rcases alike with future | rfl | ⟨usedWritten, firstWritten, noFutures⟩ |
      ⟨usedLong, firstLong⟩
    · exact absurd future isFuture
    · exact same rfl
    · refine same ?_
      rw [serialize_of_written isFuture noFutures usedWritten,
        serialize_of_written isFuture noFutures firstWritten]
    · refine same ?_
      rw [serialize_of_long isFuture usedLong,
        serialize_of_long isFuture firstLong]

theorem WrittenToFile.mono
    (later : after.Extends globals)
    (written : WrittenToFile python globals direction value type) :
    WrittenToFile python after direction value type := by
  cases type with
  | externalPsco => exact written.imp_right (later _)
  | boolean | char | int | long | double | string | file | object | psco =>
      exact written

theorem Interchangeable.mono
    {after : Globals}
    {used first : CompssType}
    (later : after.Extends globals)
    (alike : Interchangeable python globals direction value used first) :
    Interchangeable python after direction value used first := by
  refine alike.imp_right (Or.imp_right (Or.imp_left ?_))
  exact fun ⟨usedWritten, firstWritten, noFutures⟩ =>
    ⟨usedWritten.mono later, firstWritten.mono later, noFutures⟩

end Types

/-!
## Two decorators with the same directions
-/

section Parameters

variable
  {Value : Type}
  {call : Call Value}
  {specArgs : SpecArgs}
  {decorator used first : Decorator Value}
  {globals : Globals}
  {i : Nat}
  {specArg name : Text}

/-- The direction that a call uses for a name, if there is a parameter. -/
def directionOf (decorator : Decorator Value) (name : Text) :
    Option Direction :=
  (lookUp decorator name).map direction

/-- The type that a call starts with, inferred if there is none -/
def usedType
    (python : Interpreter Value)
    (decorator : Decorator Value)
    (name : Text)
    (value : Value) : CompssType :=
  ((lookUp decorator name).bind type).getD (inferType python value)

variable {p : Parameter Value}

theorem lookUp_update_self :
    lookUp (update decorator name (some (.parameter p))) name =
      some p := by
  simp [lookUp]

theorem lookUp_congr
    (same : used name = first name) :
    lookUp used name = lookUp first name := by
  rw [lookUp, lookUp, same]

variable {isFuture : Nat → Bool}

theorem submittedFor_toEntry
    {argument : Argument Value} :
    submittedFor (update decorator name (some argument.toEntry))
        isFuture (i, name) =
      some ⟨some argument.value,
        some (sentType (isFuture i) argument.type), argument.direction⟩ := by
  simp only [submittedFor, update_self, Argument.toEntry, sentType,
    Option.some.injEq, apply_ite some]

theorem submittedFor_congr
    (same : used name = first name) :
    submittedFor used isFuture (i, name) =
      submittedFor first isFuture (i, name) := by
  simp only [submittedFor, same]

/-- A step sets the parameter of its name and keeps the direction. -/
theorem inferAndSerialize_shape :
    (inferAndSerialize call specArgs i specArg decorator globals).1 =
        decorator ∨
      ∃ p final, lookUp decorator specArg = some p ∧
        final.direction = p.direction ∧
        (inferAndSerialize call specArgs i specArg decorator globals).1 =
          update decorator specArg (some (.parameter final)) := by
  unfold inferAndSerialize
  split
  case h_1 => exact .inl rfl
  case h_2 p isParameter =>
    refine .inr ⟨p, ?_⟩
    split
    case h_1 => exact ⟨p, isParameter, rfl, rfl⟩
    case h_2 value isValue =>
      dsimp only
      split
      case isTrue =>
        exact ⟨⟨some (p.type.getD (inferType call.python value)), p.direction,
          some value⟩, isParameter, rfl, rfl⟩
      case isFalse =>
        obtain ⟨final, written, after, serialized, -⟩ :=
          @serialize_spec Value call.python globals p.direction value
            (p.type.getD (inferType call.python value))
        exact ⟨⟨some final, p.direction, some written⟩, isParameter, rfl,
          by rw [serialized]; rfl⟩

theorem inferAndSerialize_other
    (other : name ≠ specArg) :
    (inferAndSerialize call specArgs i specArg decorator globals).1 name =
      decorator name := by
  rcases @inferAndSerialize_shape Value call specArgs decorator globals i
      specArg with unchanged | ⟨p, final, -, -, updated⟩
  · rw [unchanged]
  · rw [updated, update_of_ne other]

theorem directionOf_inferAndSerialize :
    directionOf
        (inferAndSerialize call specArgs i specArg decorator globals).1 name =
      directionOf decorator name := by
  rcases @inferAndSerialize_shape Value call specArgs decorator globals i
      specArg with unchanged | ⟨p, final, isParameter, sameDirection, updated⟩
  · rw [unchanged]
  · by_cases same : name = specArg
    · subst name
      rw [updated, directionOf, directionOf, lookUp_update_self, isParameter,
        Option.map_some, Option.map_some, sameDirection]
    · rw [directionOf, directionOf,
        lookUp_congr (inferAndSerialize_other same)]

theorem isSome_inferAndSerialize
    (present : (decorator name).isSome) :
    ((inferAndSerialize call specArgs i specArg decorator globals).1
      name).isSome := by
  by_cases same : name = specArg
  · subst name
    rcases @inferAndSerialize_shape Value call specArgs decorator globals i
        specArg with unchanged | ⟨p, final, -, -, updated⟩
    · rw [unchanged]
      exact present
    · rw [updated, update_self]
      rfl
  · rw [inferAndSerialize_other same]
    exact present

/-- Nothing is submitted without a parameter, without a value or with the
conversion of small objects. -/
theorem inferAndSerialize_fails
    (fails : lookUp decorator specArg = none ∨
      specArgs.valueOf call i specArg = none ∨ call.objectConversion = true) :
    (inferAndSerialize call specArgs i specArg decorator globals).2 = none := by
  unfold inferAndSerialize
  split
  case h_1 => rfl
  case h_2 p isParameter =>
    split
    case h_1 => rfl
    case h_2 value isValue =>
      have conversion : call.objectConversion = true := by
        simpa [isParameter, isValue] using fails
      simp [conversion]

theorem inferAndSerialize_of_value
    {value : Value}
    {final : Argument Value}
    {after : Option Globals}
    (isParameter : lookUp decorator specArg = some p)
    (isValue : specArgs.valueOf call i specArg = some value)
    (noConversion : call.objectConversion = false)
    (serialized :
      serializeObjectIntoFile call.python globals
        ⟨usedType call.python decorator specArg value, p.direction, value⟩ =
        (final, after)) :
    inferAndSerialize call specArgs i specArg decorator globals =
      (update decorator specArg (some final.toEntry),
        after.map fun globals =>
          (globals, decide (call.python.typeOf value = .future))) := by
  rw [usedType, isParameter, Option.bind_some] at serialized
  simp only [inferAndSerialize, isParameter, isValue, noConversion,
    Bool.false_eq_true, if_false, serialized]

/-- Interchangeable types lead to the same step. -/
theorem inferAndSerialize_interchangeable
    (directions : directionOf used specArg = directionOf first specArg)
    (alike : ∀ value direction,
      specArgs.valueOf call i specArg = some value →
      directionOf first specArg = some direction →
        Interchangeable call.python globals direction value
          (usedType call.python used specArg value)
          (usedType call.python first specArg value)) :
    let ofUsed := inferAndSerialize call specArgs i specArg used globals
    let ofFirst := inferAndSerialize call specArgs i specArg first globals
    ofUsed.2 = ofFirst.2 ∧
      ∀ after future, ofUsed.2 = some (after, future) →
        after.Extends globals ∧
          ∀ isFuture : Nat → Bool, isFuture i = future →
            submittedFor ofUsed.1 isFuture (i, specArg) =
              submittedFor ofFirst.1 isFuture (i, specArg) := by
  intro ofUsed ofFirst
  by_cases bothFail :
      lookUp first specArg = none ∨
        specArgs.valueOf call i specArg = none ∨ call.objectConversion = true
  case pos =>
    have usedFails : ofUsed.2 = none :=
      inferAndSerialize_fails (bothFail.imp_left fun none => by
        simpa [directionOf, none] using directions)
    have firstFails : ofFirst.2 = none := inferAndSerialize_fails bothFail
    exact ⟨usedFails.trans firstFails.symm, by simp [usedFails]⟩
  case neg =>
    obtain ⟨someFirst, someValue, noConversion⟩ :
        lookUp first specArg ≠ none ∧
          specArgs.valueOf call i specArg ≠ none ∧
          call.objectConversion = false := by
      simpa [not_or] using bothFail
    obtain ⟨p, isFirst⟩ := Option.ne_none_iff_exists'.mp someFirst
    obtain ⟨value, isValue⟩ := Option.ne_none_iff_exists'.mp someValue
    have isDirection : directionOf first specArg = some p.direction := by
      rw [directionOf, isFirst, Option.map_some]
    obtain ⟨q, isUsed, sameDirection⟩ :=
      Option.map_eq_some_iff.mp (directions.trans isDirection)
    obtain ⟨finalUsed, finalFirst, written, after, serializedUsed,
        serializedFirst, sameType, extend⟩ :=
      serialize_interchangeable (alike value p.direction isValue isDirection)
    have isOfUsed := inferAndSerialize_of_value isUsed isValue noConversion
      (sameDirection ▸ serializedUsed)
    have isOfFirst :=
      inferAndSerialize_of_value isFirst isValue noConversion serializedFirst
    change ofUsed = _ at isOfUsed
    change ofFirst = _ at isOfFirst
    refine ⟨by rw [isOfUsed, isOfFirst], ?_⟩
    intro next future done
    rw [isOfUsed] at done
    obtain ⟨last, isLast, done⟩ := Option.map_eq_some_iff.mp done
    obtain ⟨rfl, rfl⟩ := Prod.mk.inj done
    refine ⟨extend last isLast, fun isFuture atIndex => ?_⟩
    rw [isOfUsed, isOfFirst, submittedFor_toEntry, submittedFor_toEntry,
      atIndex, sameType, sameDirection]

/-- A list of parameters that are told apart by position and by name -/
structure Distinct (parameters : List (Nat × Text)) : Prop where
  positions : (parameters.map Prod.fst).Nodup
  names : (parameters.map Prod.snd).Nodup

variable {parameters : List (Nat × Text)}

theorem inferTypes_other
    (other : name ∉ parameters.map Prod.snd) :
    (inferTypesAndSerializeObjects call specArgs parameters decorator globals
      isFuture).1 name = decorator name := by
  induction parameters generalizing decorator globals isFuture with
  | nil => rfl
  | cons parameter rest hypothesis =>
      obtain ⟨i, specArg⟩ := parameter
      obtain ⟨different, restOther⟩ := ne_and_not_mem_of_not_mem_cons other
      have kept :=
        @inferAndSerialize_other Value call specArgs decorator globals i
          specArg name different
      rw [inferTypesAndSerializeObjects]
      split
      case h_1 next isNext =>
        rw [isNext] at kept
        exact kept
      case h_2 next after future isNext =>
        rw [isNext] at kept
        exact (hypothesis restOther).trans kept

/-- The directions of all names stay, and no name is removed. -/
theorem inferTypes_keeps
    {isFuture : Nat → Bool} :
    let left :=
      (inferTypesAndSerializeObjects call specArgs parameters decorator globals
        isFuture).1
    directionOf left name = directionOf decorator name ∧
      ((decorator name).isSome → (left name).isSome) := by
  induction parameters generalizing decorator globals isFuture with
  | nil => exact ⟨rfl, id⟩
  | cons parameter rest hypothesis =>
      obtain ⟨i, specArg⟩ := parameter
      have direction :=
        @directionOf_inferAndSerialize Value call specArgs decorator globals i
          specArg name
      have present :=
        @isSome_inferAndSerialize Value call specArgs decorator globals i
          specArg name
      rw [inferTypesAndSerializeObjects]
      split
      case h_1 next isNext =>
        rw [isNext] at direction present
        exact ⟨direction, present⟩
      case h_2 next after future isNext =>
        rw [isNext] at direction present
        have later := @hypothesis next after
          (update isFuture i future)
        exact ⟨later.1.trans direction, later.2 ∘ present⟩

theorem inferTypes_isFuture
    {isFuture final : Nat → Bool}
    (other : i ∉ parameters.map Prod.fst)
    (done :
      (inferTypesAndSerializeObjects call specArgs parameters decorator globals
        isFuture).2 = some final) :
    final i = isFuture i := by
  induction parameters generalizing decorator globals isFuture with
  | nil =>
      obtain rfl := Option.some.inj done
      rfl
  | cons parameter rest hypothesis =>
      obtain ⟨position, specArg⟩ := parameter
      obtain ⟨different, restOther⟩ := ne_and_not_mem_of_not_mem_cons other
      rw [inferTypesAndSerializeObjects] at done
      split at done
      case h_1 => cases done
      case h_2 next after future isNext =>
        rw [hypothesis restOther done, update_of_ne different]

/-- The loop submits the same for all parameters if their types are
interchangeable. -/
theorem inferTypes_interchangeable
    {isFuture : Nat → Bool}
    (distinct : Distinct parameters)
    (directions : ∀ name, directionOf used name = directionOf first name)
    (alike : ∀ parameter ∈ parameters, ∀ value direction,
      specArgs.valueOf call parameter.1 parameter.2 = some value →
      directionOf first parameter.2 = some direction →
        Interchangeable call.python globals direction value
          (usedType call.python used parameter.2 value)
          (usedType call.python first parameter.2 value)) :
    let ofUsed :=
      inferTypesAndSerializeObjects call specArgs parameters used globals
        isFuture
    let ofFirst :=
      inferTypesAndSerializeObjects call specArgs parameters first globals
        isFuture
    ofUsed.2 = ofFirst.2 ∧
      ∀ final, ofUsed.2 = some final → ∀ parameter ∈ parameters,
        submittedFor ofUsed.1 final parameter =
          submittedFor ofFirst.1 final parameter := by
  induction parameters generalizing used first globals isFuture with
  | nil => exact ⟨rfl, by simp⟩
  | cons parameter rest hypothesis =>
      obtain ⟨i, specArg⟩ := parameter
      obtain ⟨newPosition, positions⟩ := nodup_cons.mp distinct.positions
      obtain ⟨newName, names⟩ := nodup_cons.mp distinct.names
      obtain ⟨sameStep, sameSubmission⟩ :=
        @inferAndSerialize_interchangeable Value call specArgs used first
          globals i specArg (directions specArg)
          (alike (i, specArg) mem_cons_self)
      have keptUsed := fun name =>
        @inferAndSerialize_other Value call specArgs used globals i specArg name
      have keptFirst := fun name =>
        @inferAndSerialize_other Value call specArgs first globals i specArg
          name
      have nextDirections :
          ∀ name,
            directionOf
                (inferAndSerialize call specArgs i specArg used globals).1
                name =
              directionOf
                (inferAndSerialize call specArgs i specArg first globals).1
                name := by
        intro name
        rw [directionOf_inferAndSerialize, directionOf_inferAndSerialize,
          directions]
      dsimp only [inferTypesAndSerializeObjects]
      rcases stepUsed : inferAndSerialize call specArgs i specArg used globals
        with ⟨nextUsed, outcome⟩
      rcases stepFirst : inferAndSerialize call specArgs i specArg first globals
        with ⟨nextFirst, outcomeFirst⟩
      rw [stepUsed] at keptUsed
      rw [stepFirst] at keptFirst
      simp only [stepUsed, stepFirst] at sameStep sameSubmission nextDirections
      obtain rfl := sameStep
      rcases outcome with _ | ⟨after, future⟩
      · exact ⟨rfl, by simp⟩
      obtain ⟨extend, sameHead⟩ := sameSubmission after future rfl
      have different : ∀ parameter ∈ rest, parameter.2 ≠ specArg := by
        rintro parameter member rfl
        exact newName (mem_map.mpr ⟨parameter, member, rfl⟩)
      obtain ⟨sameRest, sameLater⟩ :=
        @hypothesis nextUsed nextFirst after
          (update isFuture i future) ⟨positions, names⟩ nextDirections
          fun parameter member value direction isValue isDirection => by
            have other := different parameter member
            rw [directionOf, lookUp_congr (keptFirst _ other)] at isDirection
            rw [usedType, usedType, lookUp_congr (keptUsed _ other),
              lookUp_congr (keptFirst _ other)]
            exact (alike parameter (mem_cons_of_mem _ member) value
              direction isValue isDirection).mono extend
      refine ⟨sameRest, fun final done => forall_mem_cons.mpr ⟨?_, ?_⟩⟩
      · rw [submittedFor_congr (inferTypes_other newName),
          submittedFor_congr (inferTypes_other newName)]
        refine sameHead final ?_
        rw [inferTypes_isFuture newPosition done, update_self]
      · exact sameLater final done

end Parameters

/-!
## Return values
-/

section ReturnValues

variable
  {Value : Type}
  {returns : Returns}
  {call : Call Value}
  {decorator used first : Decorator Value}
  {name : Text}

/-- What the return values put for a name, if anything -/
def returnEntry (returns : Returns) (name : Text) :
    Option (Option (Entry Value)) :=
  match returns with
  | .sequence others =>
      if name = "num_returns".toList then
        some (some .other)
      else if ((range (others + 1)).map retvalueAt).contains name then
        some (some (.parameter ⟨some .file, .outDir, none⟩))
      else if name = retvalue then
        some none
      else
        none
  | _ => none

/-- The dictionary that a call works with -/
def preparedDecorator
    (returns : Returns)
    (decorator : Decorator Value) : Decorator Value := fun name =>
  (returnEntry returns name).getD (decorator name)

/-- The assertion about return values holds. -/
def Ready (returns : Returns) (decorator : Decorator Value) : Prop :=
  ∀ others, returns = .sequence others →
    (decorator retvalue).isSome ∨ (decorator (retvalueAt 0)).isSome

theorem retvalueAt_injective : Function.Injective retvalueAt := by
  intro pos other same
  have digits := append_cancel_left same
  have read := congrArg (Nat.ofDigitChars 10 · 0) digits
  simpa only [Nat.ofDigitChars_ten_toDigits] using read

variable
  (positions : List Nat)
  (prepared : Prepared Value)

theorem foldl_addReturn :
    positions.foldl (addReturn call) { prepared with decorator } =
      { positions.foldl (addReturn call) prepared with
        decorator := fun name =>
          if name ∈ positions.map retvalueAt then
            some (.parameter ⟨some .file, .outDir, none⟩)
          else
            decorator name } := by
  induction positions generalizing prepared decorator with
  | nil => simp
  | cons pos rest hypothesis =>
      have next :
          addReturn call { prepared with decorator } pos =
            { addReturn call prepared pos with
              decorator :=
                update decorator (retvalueAt pos)
                  (some (.parameter ⟨some .file, .outDir, none⟩)) } := rfl
      rw [foldl_cons, next, hypothesis, foldl_cons]
      dsimp only
      congr 1
      funext name
      by_cases later : name ∈ rest.map retvalueAt
      · simp [later]
      · by_cases now : name = retvalueAt pos
        · simp [now]
        · simp [later, now]

theorem names_foldl_addReturn :
    (positions.foldl (addReturn call) prepared).specArgs.names =
      prepared.specArgs.names ++ positions.map retvalueAt := by
  induction positions generalizing prepared with
  | nil => simp
  | cons pos rest hypothesis =>
      rw [foldl_cons, hypothesis, map_cons]
      simp [addReturn]

theorem Globals.extends_addFuture
    {globals : Globals}
    {objId : Nat}
    {retFilename : Text} :
    (globals.addFuture objId retFilename).Extends globals :=
  extends_update

theorem extends_foldl_addReturn :
    (positions.foldl (addReturn call) prepared).globals.Extends
      prepared.globals := by
  induction positions generalizing prepared with
  | nil => exact fun _ known => known
  | cons pos rest hypothesis =>
      exact (hypothesis _).trans extends_addFuture

/-- The names are distinct, and none of them is one of a return value. -/
structure Call.WellFormed (call : Call Value) : Prop where
  distinct : call.names.Nodup
  noRetvalue : ∀ name ∈ call.names, ¬ retvalue <+: name

theorem nodup_with_returns
    {returned : List Text}
    (wellFormed : call.WellFormed)
    (distinct : returned.Nodup)
    (areReturned : ∀ name ∈ returned, retvalue <+: name) :
    (call.names ++ returned).Nodup := by
  refine nodup_append.mpr ⟨wellFormed.distinct, distinct, ?_⟩
  rintro name member _ isReturned rfl
  exact wellFormed.noRetvalue name member (areReturned name isReturned)

theorem preparedDecorator_sequence
    (others : Nat)
    (decorator : Decorator Value) :
    preparedDecorator (.sequence others) decorator =
      update
        (fun name =>
          if name ∈ (range (others + 1)).map retvalueAt then
            some (.parameter ⟨some .file, .outDir, none⟩)
          else
            update decorator retvalue none name)
        "num_returns".toList (some .other) := by
  funext name
  rw [preparedDecorator, returnEntry]
  by_cases number : name = "num_returns".toList
  · rw [if_pos number, number, update_self, Option.getD_some]
  rw [if_neg number, update_of_ne number]
  by_cases isReturn : name ∈ (range (others + 1)).map retvalueAt
  · rw [if_pos (contains_iff_mem.mpr isReturn), if_pos isReturn,
      Option.getD_some]
  rw [if_neg (mt contains_iff_mem.mp isReturn), if_neg isReturn]
  by_cases isSingle : name = retvalue
  · rw [if_pos isSingle, isSingle, update_self, Option.getD_some]
  · rw [if_neg isSingle, update_of_ne isSingle, Option.getD_none]

/-- Nothing but the entries of the names depends on the dictionary. -/
theorem exists_prepared
    (returns : Returns)
    (call : Call Value) :
    ∃ globals specArgs,
      (call.WellFormed → specArgs.names.Nodup) ∧
      globals.Extends call.globals ∧
      ∀ decorator : Decorator Value, Ready returns decorator →
        buildReturnObjects returns call decorator =
          some ⟨preparedDecorator returns decorator, globals, specArgs⟩ := by
  have single :
      call.WellFormed → (call.names ++ [retvalue]).Nodup := fun wellFormed =>
    nodup_with_returns wellFormed (nodup_singleton retvalue) (by simp)
  cases returns with
  | nothing =>
      exact ⟨call.globals, ⟨call.names, fun _ => none⟩,
        Call.WellFormed.distinct, fun _ known => known, fun _ _ => rfl⟩
  | one type => exact ⟨_, _, single, extends_addFuture, fun _ _ => rfl⟩
  | sized => exact ⟨_, _, single, extends_addFuture, fun _ _ => rfl⟩
  | sequence others =>
      let start : Prepared Value :=
        { decorator := fun _ => none
          globals := call.globals
          specArgs :=
            { names := (call.names ++ [retvalue]).erase retvalue
              fileNames := fun _ => none } }
      let positions := range (others + 1)
      let prepared := positions.foldl (addReturn call) start
      refine ⟨prepared.globals, prepared.specArgs, ?_,
        extends_foldl_addReturn positions start, ?_⟩
      · intro wellFormed
        have absent : retvalue ∉ call.names := fun member =>
          wellFormed.noRetvalue retvalue member prefix_rfl
        have names : start.specArgs.names = call.names := by
          simp [start, erase_append_right _ absent]
        rw [names_foldl_addReturn, names]
        refine nodup_with_returns wellFormed
          (nodup_range.map retvalueAt_injective) ?_
        intro name member
        obtain ⟨pos, -, rfl⟩ := mem_map.mp member
        exact prefix_append _ _
      · intro decorator ready
        let folded :=
          positions.foldl (addReturn call)
            { start with decorator := update decorator retvalue none }
        have built :
            buildReturnObjects (.sequence others) call decorator =
              some
                { folded with
                  decorator :=
                    update folded.decorator "num_returns".toList
                      (some .other) } :=
          if_pos (ready others rfl)
        have isFolded :=
          @foldl_addReturn Value call (update decorator retvalue none)
            positions start
        change folded = _ at isFolded
        rw [built, isFolded, preparedDecorator_sequence]

end ReturnValues

/-!
## Runs
-/

section Runs

variable
  {Value : Type}
  {returns : Returns}
  {task : Task Value}
  {call : Call Value}
  {decorator used first : Decorator Value}
  {name : Text}

theorem directionOf_prepared_congr
    (same : ∀ name, directionOf used name = directionOf first name) :
    directionOf (preparedDecorator returns used) name =
      directionOf (preparedDecorator returns first) name := by
  cases entry : (returnEntry returns name : Option (Option (Entry Value))) with
  | none =>
      have kept : ∀ decorator : Decorator Value,
          preparedDecorator returns decorator name = decorator name :=
        fun decorator => by rw [preparedDecorator, entry, Option.getD_none]
      rw [directionOf, directionOf, lookUp_congr (kept used),
        lookUp_congr (kept first)]
      exact same name
  | some replaced =>
      have equal :
          preparedDecorator returns used name =
            preparedDecorator returns first name := by
        rw [preparedDecorator, preparedDecorator, entry, Option.getD_some,
          Option.getD_some]
      rw [directionOf, directionOf, lookUp_congr equal]

theorem preparedDecorator_idem :
    preparedDecorator returns (preparedDecorator returns decorator) =
      preparedDecorator returns decorator := by
  funext name
  rw [preparedDecorator]
  cases entry : (returnEntry returns name : Option (Option (Entry Value))) with
  | none => rfl
  | some replaced => rw [preparedDecorator, entry, Option.getD_some,
      Option.getD_some]

/-- What all calls leave as the decorator has made it -/
structure Follows (task : Task Value) (decorator : Decorator Value) : Prop where
  directions : ∀ name,
    directionOf (preparedDecorator task.returns decorator) name =
      directionOf (preparedDecorator task.returns task.init) name
  ready : Ready task.returns decorator

theorem follows_init : Follows task task.init := by
  refine ⟨fun _ => rfl, fun others isSequence => .inl ?_⟩
  have notReserved : ¬ reserved.contains retvalue = true := by decide
  have notSelf : retvalue ≠ "self".toList := by decide
  rw [Task.init, if_neg notReserved, if_neg notSelf, if_pos rfl, isSequence]
  rfl

/-- A call changes types and values, but no direction. -/
theorem Follows.processTask
    (follows : Follows task decorator)
    (call : Call Value) :
    Follows task (processTask task.returns decorator call).1 := by
  obtain ⟨globals, specArgs, -, -, built⟩ := exists_prepared task.returns call
  let parameters := specArgs.parameters call.functionType
  let loop :=
    inferTypesAndSerializeObjects call specArgs parameters
      (preparedDecorator task.returns decorator) globals fun _ => false
  have left : (PyCompss.processTask task.returns decorator call).1 = loop.1 := by
    rw [PyCompss.processTask, built decorator follows.ready]
    dsimp only
    split
    case h_1 last isLast => exact (congrArg Prod.fst isLast).symm
    case h_2 last isFuture isLast => exact (congrArg Prod.fst isLast).symm
  have keeps := fun name =>
    @inferTypes_keeps Value call specArgs
      (preparedDecorator task.returns decorator) globals name parameters
      fun _ => false
  rw [left]
  constructor
  · intro name
    rw [directionOf_prepared_congr fun name => (keeps name).1,
      preparedDecorator_idem, follows.directions]
  · intro others isSequence
    refine .inr ((keeps (retvalueAt 0)).2 ?_)
    have notNumber : retvalueAt 0 ≠ "num_returns".toList := by decide
    have member : retvalueAt 0 ∈ (range (others + 1)).map retvalueAt :=
      mem_map_of_mem (mem_range.mpr (Nat.succ_pos others))
    rw [isSequence, preparedDecorator_sequence,
      update_of_ne notNumber, if_pos member]
    rfl

theorem follows_decoratorAfter (calls : List (Call Value)) :
    Follows task (decoratorAfter task calls) := by
  have run :
      ∀ decorator, Follows task decorator →
        Follows task
          (calls.foldl
            (fun decorator call =>
              (processTask task.returns decorator call).1) decorator) := by
    induction calls with
    | nil => exact fun _ follows => follows
    | cons call rest hypothesis =>
        exact fun _ follows => hypothesis _ (follows.processTask call)
  exact run task.init follows_init

/-- Each parameter of the call has a value whose submission is the same with the
type that earlier calls have left and with the type of a first call. -/
def TypesInterchangeable
    (task : Task Value)
    (decorator : Decorator Value)
    (call : Call Value) : Prop :=
  ∀ prepared, buildReturnObjects task.returns call decorator = some prepared →
    ∀ parameter ∈ prepared.specArgs.parameters call.functionType,
      ∀ value direction,
        prepared.specArgs.valueOf call parameter.1 parameter.2 = some value →
        directionOf prepared.decorator parameter.2 = some direction →
          Interchangeable call.python call.globals direction value
            (usedType call.python prepared.decorator parameter.2 value)
            (usedType call.python (preparedDecorator task.returns task.init)
              parameter.2 value)

theorem distinct_parameters
    {specArgs : SpecArgs}
    (distinct : specArgs.names.Nodup)
    (functionType : FunctionType) :
    Distinct (specArgs.parameters functionType) := by
  have positions :
      (specArgs.names.zipIdx.map Prod.swap).map Prod.fst =
        range' 0 specArgs.names.length := by
    rw [map_map]
    exact zipIdx_map_snd 0 specArgs.names
  have names :
      (specArgs.names.zipIdx.map Prod.swap).map Prod.snd = specArgs.names := by
    rw [map_map]
    exact zipIdx_map_fst 0 specArgs.names
  have all : Distinct (specArgs.names.zipIdx.map Prod.swap) :=
    ⟨positions ▸ nodup_range', names.symm ▸ distinct⟩
  cases functionType with
  | function => exact all
  | instanceMethod => exact all
  | classMethod =>
      have dropped := drop_sublist 1 (specArgs.names.zipIdx.map Prod.swap)
      exact ⟨all.positions.sublist (dropped.map Prod.fst),
        all.names.sublist (dropped.map Prod.snd)⟩

theorem buildValues_congr
    {functionType : FunctionType}
    {parameters : List (Nat × Text)}
    {isFuture : Nat → Bool}
    (same : ∀ parameter ∈ parameters,
      submittedFor used isFuture parameter =
        submittedFor first isFuture parameter) :
    buildValuesTypesDirections functionType parameters used isFuture =
      buildValuesTypesDirections functionType parameters first isFuture := by
  have congr :
      ∀ ordered : List (Nat × Text), ordered ⊆ parameters →
        ordered.mapM (submittedFor used isFuture) =
          ordered.mapM (submittedFor first isFuture) := by
    intro ordered inside
    induction ordered with
    | nil => rfl
    | cons parameter rest hypothesis =>
        obtain ⟨member, restInside⟩ := cons_subset.mp inside
        rw [mapM_cons, mapM_cons, same parameter member,
          hypothesis restInside]
  cases functionType with
  | function => exact congr _ (refl _)
  | classMethod => exact congr _ (refl _)
  | instanceMethod =>
      exact congr _ (append_subset.mpr
        ⟨drop_subset _ _, take_subset _ _⟩)

/-- The call submits what it would submit as the first one of the task. -/
def SubmitsAsFirst
    (task : Task Value)
    (before : List (Call Value))
    (call : Call Value) : Prop :=
  (processTask task.returns (decoratorAfter task before) call).2 =
    (processTask task.returns task.init call).2

/-- Earlier calls do not matter if the types that they have left are
interchangeable with the ones of a first call. -/
theorem submitsAsFirst_of_interchangeable
    (task : Task Value)
    (before : List (Call Value))
    (call : Call Value)
    (wellFormed : call.WellFormed)
    (interchangeable :
      TypesInterchangeable task (decoratorAfter task before) call) :
    SubmitsAsFirst task before call := by
  rw [SubmitsAsFirst]
  have follows := @follows_decoratorAfter Value task before
  generalize decoratorAfter task before = decorator at follows interchangeable ⊢
  obtain ⟨globals, specArgs, distinct, extend, built⟩ :=
    exists_prepared task.returns call
  have builtUsed := built decorator follows.ready
  have builtFirst := built task.init follows_init.ready
  obtain ⟨sameOutcome, sameSubmissions⟩ :=
    @inferTypes_interchangeable Value call specArgs
      (preparedDecorator task.returns decorator)
      (preparedDecorator task.returns task.init) globals
      (specArgs.parameters call.functionType) (fun _ => false)
      (distinct_parameters (distinct wellFormed) call.functionType)
      follows.directions
      fun parameter member value direction isValue isDirection =>
        (interchangeable _ builtUsed parameter member value direction isValue
          ((follows.directions parameter.2).trans isDirection)).mono extend
  rw [processTask, processTask, builtUsed, builtFirst]
  dsimp only
  rcases ofUsed :
    inferTypesAndSerializeObjects call specArgs
      (specArgs.parameters call.functionType)
      (preparedDecorator task.returns decorator) globals (fun _ => false) with
    ⟨lastUsed, outcome⟩
  rcases ofFirst :
    inferTypesAndSerializeObjects call specArgs
      (specArgs.parameters call.functionType)
      (preparedDecorator task.returns task.init) globals (fun _ => false) with
    ⟨lastFirst, outcomeFirst⟩
  simp only [ofUsed, ofFirst] at sameOutcome sameSubmissions
  obtain rfl := sameOutcome
  cases outcome with
  | none => rfl
  | some isFuture => exact buildValues_congr (sameSubmissions isFuture rfl)

/-! Numbers and texts are passed to a function without decorations. -/

inductive Sample where
  | number (n : Int)
  | text (text : Text)
  deriving DecidableEq

/-- Python has any text greater than any number. -/
def samples : Interpreter Sample where
  typeOf
    | .number _ => .int
    | .text _ => .str
  id
    | .number n => n.toNat
    | .text text => text.length
  getID _ := none
  isNone _ := false
  exceedsInt
    | .number n => some (n < -2147483648 ∨ 2147483647 < n)
    | .text _ => some true
  exceedsLong
    | .number n => some (n < -9223372036854775808 ∨ 9223372036854775807 < n)
    | .text _ => some true
  elements _ := []
  isFuture _ := false
  serializable _ := true
  str := .text
  newList _ := .text []
  fileOfId objId := "./compss-serialized-obj_".toList ++ Nat.toDigits 10 objId
  getFile _ _ := none

def undecorated : Task Sample where
  kwargs _ := none
  isModifier := true
  returns := .nothing

variable (value : Sample)

def callWith : Call Sample where
  python := samples
  globals := ⟨fun _ => none, fun _ => false, fun _ => false⟩
  objectConversion := false
  functionType := .function
  names := ["a".toList]
  args := [value]
  futureId _ := 0

theorem wellFormed_callWith : (callWith value).WellFormed :=
  ⟨nodup_singleton _, forall_mem_singleton.mpr (by decide)⟩

theorem submitsAsFirst_secondNumber :
    SubmitsAsFirst undecorated [callWith (.number 1)] (callWith (.number 2)) := by
  refine submitsAsFirst_of_interchangeable undecorated [callWith (.number 1)]
    (callWith (.number 2)) (wellFormed_callWith _) ?_
  rintro prepared ⟨⟩ parameter member value direction isValue isDirection
  obtain rfl := mem_singleton.mp member
  obtain rfl := Option.some.inj isValue
  exact .inr (.inl rfl)

/-- After a number, a text is submitted as a `long`. -/
theorem not_submitsAsFirst_text :
    (callWith (.text "x".toList)).WellFormed ∧
      ¬ SubmitsAsFirst undecorated [callWith (.number 1)]
        (callWith (.text "x".toList)) := by
  refine ⟨wellFormed_callWith _, ?_⟩
  rw [SubmitsAsFirst]
  decide

end Runs

end DistributedRdf.PyCompss
