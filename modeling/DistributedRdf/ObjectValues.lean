import DistributedRdf.PriorityQueue
import DistributedRdf.Score

namespace DistributedRdf.Scheduling

open Java List PriorityQueue

universe u

/-!
# Actions with their scores

The wrappers are ordered by their scores, and equal when the hash codes of
their actions are.
-/

/-- The static method, for scores that may be null -/
def Score.isBetterOrOther : Option Score → Option Score → Bool
  | none, _ => false
  | some _, none => true
  | some a, some b => a.isBetter b

structure ObjectValue (T : Type u) where
  obj : T
  value : Option Score

namespace ObjectValue

variable
  {T : Type u}
  (ofObject : T → Int)
  (this : ObjectValue T)

def hashCode : Int :=
  ofObject this.obj

def equals (this ov : ObjectValue T) : Bool :=
  this.hashCode ofObject = ov.hashCode ofObject

def compareTo (this o : ObjectValue T) : Int :=
  if Score.isBetterOrOther this.value o.value then
    -1
  else if Score.isBetterOrOther o.value this.value then
    1
  else
    0

/-- A missing score is the worst. -/
def key (this : ObjectValue T) : WithBot (ℚ ×ₗ ℚ ×ₗ ℚ ×ₗ ℚ) :=
  this.value.map Score.key

theorem isBetterOrOther_iff (this o : ObjectValue T) :
    Score.isBetterOrOther this.value o.value ↔ o.key < this.key := by
  rcases this with ⟨obj, value⟩
  rcases o with ⟨other, otherValue⟩
  cases value with
  | none => exact ⟨nofun, fun less => absurd less not_lt_bot⟩
  | some a =>
      cases otherValue with
      | none => exact ⟨fun _ => WithBot.bot_lt_coe a.key, fun _ => rfl⟩
      | some b => exact (a.isBetter_iff b).trans WithBot.coe_lt_coe.symm

theorem compareTo_nonpos_iff (this o : ObjectValue T) :
    this.compareTo o ≤ 0 ↔ o.key ≤ this.key := by
  rw [compareTo]
  by_cases better : Score.isBetterOrOther this.value o.value
  · simp [better, ((isBetterOrOther_iff this o).mp better).le]
  · by_cases worse : Score.isBetterOrOther o.value this.value
    · simp [better, worse, (isBetterOrOther_iff o this).mp worse]
    · have atMost := mt (isBetterOrOther_iff o this).mpr worse
      simp [better, worse, not_lt.mp atMost]

theorem compareTo_reverses (this o : ObjectValue T) :
    o.compareTo this = -this.compareTo o := by
  rw [compareTo, compareTo]
  by_cases better : Score.isBetterOrOther this.value o.value
  · have notWorse := ((isBetterOrOther_iff this o).mp better).not_gt
    rw [← isBetterOrOther_iff] at notWorse
    simp [better, notWorse]
  · by_cases worse : Score.isBetterOrOther o.value this.value
    · simp [better, worse]
    · simp [better, worse]

theorem compareTo_self : this.compareTo this = 0 := by
  have reversed := compareTo_reverses this this
  omega

end ObjectValue

section FreeActions

variable
  {T : Type u}
  (hashCode : T → Int)
  -- `generateActionScore` and `schedulingScore`
  (fullScore : T → Option Score)

def wrapped (freeAction : T) : ObjectValue T :=
  ⟨freeAction, fullScore freeAction⟩

variable
  (implementation :
    PriorityQueue.Implementation (ObjectValue T) ObjectValue.compareTo)

/-- An action that is contained already is not added. -/
def addFreeAction
    (executableActions : PriorityQueue (ObjectValue T) ObjectValue.compareTo)
    (freeAction : T) :
    PriorityQueue (ObjectValue T) ObjectValue.compareTo :=
  let obj := wrapped fullScore freeAction
  if executableActions.elements.any (obj.equals hashCode) then
    executableActions
  else
    executableActions.add implementation obj

variable (dataFreeActions resourceFreeActions : List T)

/-- The actions that `handleDependencyFreeActions` tries to launch -/
def launchedActions : List T :=
  let executableActions :=
    resourceFreeActions.foldl (addFreeAction hashCode fullScore implementation)
      (ofList implementation
        (dataFreeActions.map (wrapped fullScore)))
  (drain implementation executableActions.elements.length
    executableActions).map (·.obj)

/-- The wrappers stand for their actions, and each of these is launched. -/
structure IdentifiesActions : Prop where
  identity :
    ∀ first second : ObjectValue T,
      first.obj ∈ dataFreeActions ++ resourceFreeActions →
        second.obj ∈ dataFreeActions ++ resourceFreeActions →
          first.equals hashCode second → first.obj = second.obj
  compatible :
    ∀ first ∈ dataFreeActions ++ resourceFreeActions,
      ∀ second ∈ dataFreeActions ++ resourceFreeActions,
        (wrapped fullScore first).equals hashCode (wrapped fullScore second) →
          (wrapped fullScore first).compareTo (wrapped fullScore second) = 0
  reverses :
    ∀ first second : ObjectValue T,
      second.compareTo first = -first.compareTo second
  transitive :
    ∀ first second third : ObjectValue T,
      first.compareTo second ≤ 0 → second.compareTo third ≤ 0 →
        first.compareTo third ≤ 0
  launched :
    ∀ implementation, ∀ action ∈ dataFreeActions ++ resourceFreeActions,
      action ∈ launchedActions hashCode fullScore implementation
        dataFreeActions resourceFreeActions

variable
  {hashCode fullScore implementation dataFreeActions resourceFreeActions}

/-- Adding brings in the actions of the list and keeps what is there. -/
theorem mem_foldl_addFreeAction
    {executableActions : PriorityQueue (ObjectValue T) ObjectValue.compareTo}
    (known : List T)
    (contained :
      ∀ obj ∈ executableActions.elements, obj.obj ∈ known)
    (distinct :
      ∀ first ∈ known ++ resourceFreeActions,
        ∀ second ∈ known ++ resourceFreeActions,
          hashCode first = hashCode second → first = second)
    (present :
      ∀ action ∈ known, ∃ obj ∈ executableActions.elements, obj.obj = action)
    {action : T}
    (member : action ∈ known ++ resourceFreeActions) :
    ∃ obj ∈ (resourceFreeActions.foldl
        (addFreeAction hashCode fullScore implementation)
        executableActions).elements,
      obj.obj = action := by
  induction resourceFreeActions generalizing executableActions known with
  | nil =>
      rw [append_nil] at member
      exact present action member
  | cons freeAction rest hypothesis =>
      have longer : known ++ freeAction :: rest =
          (known ++ [freeAction]) ++ rest := by
        rw [append_assoc, singleton_append]
      rw [longer] at distinct member
      refine hypothesis (known ++ [freeAction]) ?_ distinct ?_ member
      · intro obj isElement
        rw [addFreeAction] at isElement
        split at isElement
        · exact mem_append_left _ (contained obj isElement)
        · rcases mem_append.mp
            ((implementation.arranged_perm _).mem_iff.mp isElement) with
            before | isNew
          · exact mem_append_left _ (contained obj before)
          · rw [mem_singleton.mp isNew]
            exact mem_append_right _ (mem_singleton_self _)
      · intro other isOther
        rw [addFreeAction]
        split
        case isTrue alreadyThere =>
          rcases mem_append.mp isOther with before | isNew
          · exact present other before
          · obtain ⟨obj, isElement, same⟩ := any_eq_true.mp alreadyThere
            refine ⟨obj, isElement, ?_⟩
            rw [mem_singleton.mp isNew]
            have isKnown := contained obj isElement
            exact (distinct freeAction (by simp) obj.obj (by simp [isKnown])
              (of_decide_eq_true same)).symm
        case isFalse isNotThere =>
          have elements := implementation.arranged_perm
            (executableActions.elements ++ [wrapped fullScore freeAction])
          rcases mem_append.mp isOther with before | isNew
          · obtain ⟨obj, isElement, same⟩ := present other before
            exact ⟨obj, elements.mem_iff.mpr
              (mem_append_left _ isElement), same⟩
          · rw [mem_singleton.mp isNew]
            exact ⟨_, elements.mem_iff.mpr
              (mem_append_right _ (mem_singleton_self _)), rfl⟩

theorem mem_launchedActions
    (distinct :
      ∀ first ∈ dataFreeActions ++ resourceFreeActions,
        ∀ second ∈ dataFreeActions ++ resourceFreeActions,
          hashCode first = hashCode second → first = second)
    {action : T}
    (member : action ∈ dataFreeActions ++ resourceFreeActions) :
    action ∈ launchedActions hashCode fullScore implementation dataFreeActions
      resourceFreeActions := by
  have elements := ofList_perm implementation
    (dataFreeActions.map (wrapped fullScore))
  obtain ⟨obj, isElement, rfl⟩ :=
    @mem_foldl_addFreeAction _ hashCode fullScore implementation _ _
      dataFreeActions
      (fun obj isElement => by
        obtain ⟨freeAction, isFree, rfl⟩ :=
          mem_map.mp (elements.mem_iff.mp isElement)
        exact isFree)
      distinct
      (fun freeAction isFree =>
        ⟨_, elements.mem_iff.mpr (mem_map_of_mem isFree), rfl⟩)
      action member
  exact mem_map_of_mem
    ((drain_perm (le_refl _)).mem_iff.mpr isElement)

/-- Two actions are taken for one when their hash codes are the same. -/
theorem identifiesActions_iff :
    IdentifiesActions hashCode fullScore dataFreeActions
        resourceFreeActions ↔
      ∀ first ∈ dataFreeActions ++ resourceFreeActions,
        ∀ second ∈ dataFreeActions ++ resourceFreeActions,
          hashCode first = hashCode second → first = second := by
  constructor
  · intro identifies first isFirst second isSecond sameCode
    exact identifies.identity (wrapped fullScore first)
      (wrapped fullScore second) isFirst isSecond (decide_eq_true sameCode)
  · intro distinct
    refine ⟨?_, ?_, ObjectValue.compareTo_reverses, ?_, ?_⟩
    · intro first second isFirst isSecond same
      exact distinct _ isFirst _ isSecond (of_decide_eq_true same)
    · intro first isFirst second isSecond same
      rw [distinct first isFirst second isSecond (of_decide_eq_true same)]
      exact ObjectValue.compareTo_self _
    · intro first second third
      simp only [ObjectValue.compareTo_nonpos_iff]
      exact fun second third => third.trans second
    · exact fun implementation action member =>
        mem_launchedActions distinct member

/-- Two actions that happen to have the same hash code -/
theorem not_identifiesActions_sameCode :
    ¬ IdentifiesActions (fun _ : Bool => 42) (fun _ => none)
      [false] [true] := by
  intro identifies
  exact Bool.false_ne_true
    (identifies.identity ⟨false, none⟩ ⟨true, none⟩ (by decide) (by decide) rfl)

end FreeActions

end DistributedRdf.Scheduling
