import DistributedRdf.TransitionSystem
import Mathlib.Data.List.ReduceOption

namespace DistributedRdf.Cores

open Execution List Option

/-!
# The registry of cores

A core has a number and a signature of its own, and so has each of its
implementations.  One table lists the signatures of each core; the other one
leads from a signature to the number of its core.
-/

def ERROR_INVALID_SIGNATURE : String :=
  "Invalid signature. Skipping addition"

def ERROR_UNREGISTERED_CORE_ELEMENT : String :=
  "Unregistered CoreElement. Skipping addition of "

def ERROR_INVALID_IMPLS_SIGNS : String :=
  "Attempting to register a different number of implementations and " ++
    "signatures. Skipping addition"

/-- The first signature of each core is its own one. -/
structure CoreManager (Implementation : Type) where
  coreCount : Nat
  implementations : List (List Implementation)
  signatures : List (List String)
  signatureToCoreId : String → Option Nat

namespace CoreManager

variable {Implementation : Type}

def empty : CoreManager Implementation where
  coreCount := 0
  implementations := []
  signatures := []
  signatureToCoreId _ := none

/-- The signature is not `null` and it is not empty. -/
def isValid (signature : Option String) : Bool :=
  signature.any (· ≠ "")

/-- The number of the new core, or `null` -/
def registerNewCoreElement
    (manager : CoreManager Implementation)
    (signature : Option String) :
    CoreManager Implementation × Option Nat :=
  match signature with
  | none => (manager, none)
  | some name =>
      if name = "" then
        (manager, none)
      else if (manager.signatureToCoreId name).isSome then
        (manager, none)
      else
        ({ coreCount := manager.coreCount + 1
           implementations := manager.implementations ++ [[]]
           signatures := manager.signatures ++ [[name]]
           signatureToCoreId :=
            Function.update manager.signatureToCoreId name
              (some manager.coreCount) },
          some manager.coreCount)

/-- The error that is reported instead of a registration -/
def registrationError
    (manager : CoreManager Implementation)
    (coreId : Int)
    (impls : List Implementation)
    (signs : List (Option String)) : Option String :=
  if coreId < 0 ∨ manager.coreCount ≤ coreId then
    some (ERROR_UNREGISTERED_CORE_ELEMENT ++ toString coreId)
  else if impls.length ≠ signs.length then
    some ERROR_INVALID_IMPLS_SIGNS
  else if signs.all isValid then
    none
  else
    some ERROR_INVALID_SIGNATURE

variable (signatureToCoreId : String → Option Nat)

/-- The cross-references of the signatures lead to the core. -/
def crossReference
    (coreId : Nat)
    (signs : List String) : String → Option Nat :=
  signs.foldl
    (fun table signature => Function.update table signature (some coreId))
    signatureToCoreId

def addImplementations
    (manager : CoreManager Implementation)
    (coreId : Nat)
    (impls : List Implementation)
    (signs : List String) : CoreManager Implementation where
  coreCount := manager.coreCount
  implementations := manager.implementations.modify coreId (· ++ impls)
  signatures := manager.signatures.modify coreId (· ++ signs)
  signatureToCoreId := crossReference manager.signatureToCoreId coreId signs

def registerNewImplementations
    (manager : CoreManager Implementation)
    (coreId : Int)
    (impls : List Implementation)
    (signs : List (Option String)) :
    CoreManager Implementation × Option String :=
  match manager.registrationError coreId impls signs with
  | some error => (manager, some error)
  | none =>
      (manager.addImplementations coreId.toNat impls signs.reduceOption, none)

/-- The core of a signature, or the error that is reported -/
def getCoreId
    (manager : CoreManager Implementation)
    (signature : Option String) : Except String Nat :=
  match signature with
  | none => .error ERROR_INVALID_SIGNATURE
  | some name =>
      if name = "" then
        .error ERROR_INVALID_SIGNATURE
      else
        match manager.signatureToCoreId name with
        | none => .error (ERROR_UNREGISTERED_CORE_ELEMENT ++ name)
        | some coreId => .ok coreId

/-- The signature of an implementation, or `null` -/
def getSignature
    (manager : CoreManager Implementation)
    (coreId implId : Int) : Option String :=
  if coreId < 0 ∨ manager.coreCount ≤ coreId then
    none
  else if implId + 1 < 0 then
    none
  else
    (manager.signatures[coreId.toNat]?).bind (·[(implId + 1).toNat]?)

/-- The signatures of the implementations of a core -/
def implementationSignatures
    (manager : CoreManager Implementation)
    (coreId : Nat) : List String :=
  (manager.signatures.getD coreId []).tail

/--
No signature leads to another core, and none is one of another implementation
of the core.
-/
def AllFresh
    (manager : CoreManager Implementation)
    (coreId : Nat)
    (signs : List String) : Prop :=
  (∀ signature ∈ signs,
    manager.signatureToCoreId signature = none ∨
      manager.signatureToCoreId signature = some coreId) ∧
    (manager.implementationSignatures coreId ++ signs).Nodup

/-- The two tables are inverse to each other. -/
structure Consistent (manager : CoreManager Implementation) : Prop where
  implementationCount : manager.implementations.length = manager.coreCount
  signatureCount : manager.signatures.length = manager.coreCount
  rows :
    ∀ (coreId : Nat) (row : List String) (impls : List Implementation),
      manager.signatures[coreId]? = some row →
        manager.implementations[coreId]? = some impls →
          row.length = impls.length + 1
  listed :
    ∀ (signature : String) (coreId : Nat),
      manager.signatureToCoreId signature = some coreId ↔
        ∃ row, manager.signatures[coreId]? = some row ∧ signature ∈ row
  once : ∀ coreId, (manager.implementationSignatures coreId).Nodup
  valid : manager.signatureToCoreId "" = none

/-!
## New cores
-/

variable
  {manager : CoreManager Implementation}
  {coreId : Nat}
  {signs : List String}
  {impls : List Implementation}

theorem Consistent.empty :
    (CoreManager.empty : CoreManager Implementation).Consistent where
  implementationCount := rfl
  signatureCount := rfl
  rows := by simp [CoreManager.empty]
  listed := by simp [CoreManager.empty]
  once := by simp [CoreManager.empty, implementationSignatures]
  valid := rfl

variable
  {Element : Type}
  {place : Nat}

theorem getElem?_concat_iff
    {items : List Element}
    {last item : Element} :
    (items ++ [last])[place]? = some item ↔
      items[place]? = some item ∨ place = items.length ∧ last = item := by
  by_cases before : place < items.length
  · rw [List.getElem?_append_left before]
    simp [Nat.ne_of_lt before]
  · by_cases same : place = items.length
    · subst same
      simp
    · have outside : (items ++ [last]).length ≤ place := by
        rw [length_append, length_singleton]
        omega
      have beyond : items.length ≤ place := Nat.le_of_not_lt before
      simp [List.getElem?_eq_none outside, List.getElem?_eq_none beyond, same]

variable (manager)

/-- The registry with one more core -/
def addCore
    (name : String) : CoreManager Implementation where
  coreCount := manager.coreCount + 1
  implementations := manager.implementations ++ [[]]
  signatures := manager.signatures ++ [[name]]
  signatureToCoreId :=
    Function.update manager.signatureToCoreId name (some manager.coreCount)

/-- A core is added for a signature that is not known. -/
theorem registerNewCoreElement_eq
    (signature : Option String) :
    manager.registerNewCoreElement signature = (manager, none) ∨
      ∃ name,
        signature = some name ∧ name ≠ "" ∧
          manager.signatureToCoreId name = none ∧
            manager.registerNewCoreElement signature =
              (manager.addCore name, some manager.coreCount) := by
  cases signature with
  | none => exact Or.inl rfl
  | some name =>
      by_cases empty : name = ""
      · exact Or.inl (if_pos empty)
      · cases known : manager.signatureToCoreId name with
        | none =>
            refine Or.inr ⟨name, rfl, empty, known, ?_⟩
            simp [registerNewCoreElement, empty, known, addCore]
        | some coreId =>
            refine Or.inl ?_
            simp [registerNewCoreElement, known]

variable {manager}

theorem Consistent.addCore
    {name : String}
    (consistent : manager.Consistent)
    (nonempty : name ≠ "")
    (unknown : manager.signatureToCoreId name = none) :
    (manager.addCore name).Consistent where
  implementationCount := by
    simp [CoreManager.addCore, consistent.implementationCount]
  signatureCount := by
    simp [CoreManager.addCore, consistent.signatureCount]
  rows := by
    intro coreId row impls isRow isImpls
    rcases getElem?_concat_iff.mp isRow with oldRow | ⟨place, rfl⟩
    · rcases getElem?_concat_iff.mp isImpls with oldImpls | ⟨place, rfl⟩
      · exact consistent.rows coreId row impls oldRow oldImpls
      · have inside := (List.getElem?_eq_some_iff.mp oldRow).1
        rw [place, consistent.implementationCount,
          consistent.signatureCount] at inside
        exact absurd inside (Nat.lt_irrefl _)
    · rcases getElem?_concat_iff.mp isImpls with oldImpls | ⟨-, rfl⟩
      · have inside := (List.getElem?_eq_some_iff.mp oldImpls).1
        rw [place, consistent.implementationCount,
          consistent.signatureCount] at inside
        exact absurd inside (Nat.lt_irrefl _)
      · rfl
  listed := by
    intro signature coreId
    simp only [CoreManager.addCore, getElem?_concat_iff]
    by_cases same : signature = name
    · subst same
      rw [Function.update_self]
      constructor
      · intro isNew
        cases isNew
        exact ⟨[signature], Or.inr ⟨consistent.signatureCount.symm, rfl⟩,
          mem_singleton_self signature⟩
      · rintro ⟨row, oldRow | ⟨place, -⟩, member⟩
        · have known := (consistent.listed signature coreId).mpr
            ⟨row, oldRow, member⟩
          rw [unknown] at known
          exact absurd known (by simp)
        · rw [place, consistent.signatureCount]
    · rw [Function.update_of_ne same, consistent.listed]
      constructor
      · rintro ⟨row, oldRow, member⟩
        exact ⟨row, Or.inl oldRow, member⟩
      · rintro ⟨row, oldRow | ⟨-, rfl⟩, member⟩
        · exact ⟨row, oldRow, member⟩
        · exact absurd (mem_singleton.mp member) same
  once := by
    intro coreId
    rw [implementationSignatures, getD_eq_getElem?_getD]
    cases isRow : (manager.addCore name).signatures[coreId]? with
    | none => simp
    | some row =>
        rcases getElem?_concat_iff.mp isRow with oldRow | ⟨-, rfl⟩
        · have oldOnce := consistent.once coreId
          rw [implementationSignatures, getD_eq_getElem?_getD,
            oldRow] at oldOnce
          exact oldOnce
        · simp
  valid := by
    simp only [CoreManager.addCore]
    rw [Function.update_of_ne nonempty.symm, consistent.valid]

/-!
## New implementations
-/

theorem crossReference_apply
    (coreId : Nat)
    (signs : List String)
    (signature : String) :
    crossReference signatureToCoreId coreId signs signature =
      if signature ∈ signs then some coreId
      else signatureToCoreId signature := by
  induction signs generalizing signatureToCoreId with
  | nil => rfl
  | cons first rest hypothesis =>
      rw [crossReference, foldl_cons]
      refine (hypothesis _).trans ?_
      by_cases later : signature ∈ rest
      · simp [later]
      · by_cases same : signature = first
        · subst same
          simp [later]
        · simp [later, same]

theorem implementationSignatures_of_row
    {row : List String}
    (isRow : manager.signatures[coreId]? = some row) :
    manager.implementationSignatures coreId = row.tail := by
  rw [implementationSignatures, getD_eq_getElem?_getD, isRow,
    getD_some]

/-- Every core has a row, which starts with its own signature. -/
theorem Consistent.row
    (consistent : manager.Consistent)
    (registered : coreId < manager.coreCount) :
    ∃ row impls,
      manager.signatures[coreId]? = some row ∧
        manager.implementations[coreId]? = some impls ∧
          row.length = impls.length + 1 := by
  have inSignatures : coreId < manager.signatures.length :=
    consistent.signatureCount ▸ registered
  have inImplementations : coreId < manager.implementations.length :=
    consistent.implementationCount ▸ registered
  refine ⟨_, _, List.getElem?_eq_getElem inSignatures,
    List.getElem?_eq_getElem inImplementations, ?_⟩
  exact consistent.rows coreId _ _ (List.getElem?_eq_getElem inSignatures)
    (List.getElem?_eq_getElem inImplementations)

theorem tail_append_of_length
    {row : List String}
    {count : Nat}
    (length : row.length = count + 1)
    (signs : List String) :
    (row ++ signs).tail = row.tail ++ signs := by
  cases row with
  | nil => simp at length
  | cons first rest => rfl

section

variable (consistent : manager.Consistent)

include consistent

theorem implementationSignatures_addImplementations
    (registered : coreId < manager.coreCount) :
    (manager.addImplementations coreId impls signs).implementationSignatures
        coreId =
      manager.implementationSignatures coreId ++ signs := by
  obtain ⟨row, _, isRow, _, length⟩ := consistent.row registered
  have longer :
      (manager.addImplementations coreId impls signs).signatures[coreId]? =
        some (row ++ signs) := by
    simp [addImplementations, isRow]
  rw [implementationSignatures_of_row longer,
    implementationSignatures_of_row isRow, tail_append_of_length length]

omit consistent in
theorem getElem?_modify_append_iff
    {rows : List (List Element)}
    {row more : List Element} :
    (rows.modify coreId (· ++ more))[place]? = some row ↔
      ∃ old, rows[place]? = some old ∧
        row = if coreId = place then old ++ more else old := by
  rw [List.getElem?_modify]
  cases rows[place]? with
  | none => simp
  | some old =>
      by_cases same : coreId = place
      · simp [same, eq_comm]
      · simp [same, eq_comm]

variable (registered : coreId < manager.coreCount)

include registered

/-- Fresh signatures keep the tables inverse to each other. -/
theorem Consistent.addImplementations
    (sameLength : impls.length = signs.length)
    (nonempty : "" ∉ signs)
    (fresh : manager.AllFresh coreId signs) :
    (manager.addImplementations coreId impls signs).Consistent where
  implementationCount := by
    simp [CoreManager.addImplementations, consistent.implementationCount]
  signatureCount := by
    simp [CoreManager.addImplementations, consistent.signatureCount]
  rows := by
    intro other row otherImpls isRow isImpls
    obtain ⟨oldRow, isOldRow, rfl⟩ := getElem?_modify_append_iff.mp isRow
    obtain ⟨oldImpls, isOldImpls, rfl⟩ :=
      getElem?_modify_append_iff.mp isImpls
    have length := consistent.rows other oldRow oldImpls isOldRow isOldImpls
    by_cases same : coreId = other
    · simp only [if_pos same, length_append]
      omega
    · simpa only [if_neg same] using length
  listed := by
    intro signature other
    simp only [CoreManager.addImplementations, getElem?_modify_append_iff]
    rw [crossReference_apply]
    constructor
    · intro leads
      by_cases isNew : signature ∈ signs
      · rw [if_pos isNew] at leads
        cases leads
        obtain ⟨row, _, isRow, -, -⟩ := consistent.row registered
        refine ⟨_, ⟨row, isRow, rfl⟩, ?_⟩
        rw [if_pos rfl]
        exact mem_append_right row isNew
      · rw [if_neg isNew] at leads
        obtain ⟨row, isRow, member⟩ :=
          (consistent.listed signature other).mp leads
        refine ⟨_, ⟨row, isRow, rfl⟩, ?_⟩
        split
        · exact mem_append_left signs member
        · exact member
    · rintro ⟨_, ⟨row, isRow, rfl⟩, member⟩
      by_cases same : coreId = other
      · subst same
        rw [if_pos rfl] at member
        split
        · rfl
        · rename_i isOld
          have inRow := (mem_append.mp member).resolve_right isOld
          exact (consistent.listed signature coreId).mpr ⟨row, isRow, inRow⟩
      · rw [if_neg same] at member
        have leads := (consistent.listed signature other).mpr
          ⟨row, isRow, member⟩
        have isOld : signature ∉ signs := by
          intro isNew
          rcases fresh.1 signature isNew with unknown | ofCore
          · rw [unknown] at leads
            exact absurd leads (by simp)
          · rw [ofCore] at leads
            exact same (some.inj leads)
        rw [if_neg isOld, leads]
  once := by
    intro other
    by_cases same : coreId = other
    · subst same
      rw [implementationSignatures_addImplementations consistent registered]
      exact fresh.2
    · have unchanged :
          (manager.addImplementations coreId impls
            signs).implementationSignatures other =
            manager.implementationSignatures other := by
        simp [implementationSignatures, CoreManager.addImplementations,
          getD_eq_getElem?_getD, same]
      rw [unchanged]
      exact consistent.once other
  valid := by
    simp only [CoreManager.addImplementations]
    rw [crossReference_apply, if_neg nonempty, consistent.valid]

/-- Signatures that are not fresh break the tables. -/
theorem Consistent.allFresh
    (after : (manager.addImplementations coreId impls signs).Consistent) :
    manager.AllFresh coreId signs := by
  constructor
  · intro signature isNew
    cases leads : manager.signatureToCoreId signature with
    | none => exact Or.inl rfl
    | some other =>
        refine Or.inr ?_
        by_cases same : coreId = other
        · rw [same]
        · obtain ⟨row, isRow, member⟩ :=
            (consistent.listed signature other).mp leads
          have stillLeads :=
            (after.listed signature other).mpr
              ⟨row, getElem?_modify_append_iff.mpr
                ⟨row, isRow, (if_neg same).symm⟩, member⟩
          simp only [CoreManager.addImplementations] at stillLeads
          rw [crossReference_apply, if_pos isNew] at stillLeads
          exact absurd (some.inj stillLeads) same
  · rw [← implementationSignatures_addImplementations consistent registered]
    exact after.once coreId

end

variable (manager)

/-- Whether a call of `registerNewImplementations` keeps the tables in order -/
def AcceptsFresh
    (coreId : Int)
    (impls : List Implementation)
    (signs : List (Option String)) : Prop :=
  manager.registrationError coreId impls signs = none →
    manager.AllFresh coreId.toNat signs.reduceOption

variable {manager}

/-- What is known of a call that is accepted -/
theorem accepted_iff
    {coreId : Int}
    {signs : List (Option String)} :
    manager.registrationError coreId impls signs = none ↔
      (0 ≤ coreId ∧ coreId < manager.coreCount) ∧
        impls.length = signs.length ∧ signs.all isValid := by
  rw [registrationError]
  split
  · rename_i outside
    simp only [reduceCtorEq, false_iff]
    omega
  · rename_i inside
    have bounds : 0 ≤ coreId ∧ coreId < manager.coreCount := by omega
    split
    · rename_i different
      simp [different]
    · rename_i same
      have lengths : impls.length = signs.length := not_not.mp same
      split
      · rename_i valid
        simp only [bounds, lengths, valid, and_self]
      · rename_i invalid
        simp [invalid]

theorem length_reduceOption_of_valid
    {signs : List (Option String)}
    (valid : signs.all isValid) :
    signs.reduceOption.length = signs.length := by
  induction signs with
  | nil => rfl
  | cons first rest hypothesis =>
      rw [all_cons, Bool.and_eq_true] at valid
      cases first with
      | none => exact absurd valid.1 (by simp [isValid])
      | some name =>
          rw [reduceOption_cons_of_some, length_cons,
            length_cons, hypothesis valid.2]

theorem nonempty_of_valid
    {signs : List (Option String)}
    (valid : signs.all isValid) :
    "" ∉ signs.reduceOption := by
  intro member
  have inSigns := reduceOption_mem_iff.mp member
  have isName := all_eq_true.mp valid _ inSigns
  exact absurd isName (by simp [isValid])

theorem registerNewImplementations_consistent_iff
    (consistent : manager.Consistent)
    (coreId : Int)
    (impls : List Implementation)
    (signs : List (Option String)) :
    (manager.registerNewImplementations coreId impls signs).1.Consistent ↔
      manager.AcceptsFresh coreId impls signs := by
  rw [registerNewImplementations, AcceptsFresh]
  cases outcome : manager.registrationError coreId impls signs with
  | some error => simp [consistent]
  | none =>
      obtain ⟨⟨nonneg, below⟩, lengths, valid⟩ := accepted_iff.mp outcome
      have registered : coreId.toNat < manager.coreCount := by omega
      simp only [true_imp_iff]
      constructor
      · exact consistent.allFresh registered
      · refine consistent.addImplementations registered ?_
          (nonempty_of_valid valid)
        rw [length_reduceOption_of_valid valid, lengths]

theorem registerNewCoreElement_consistent
    (consistent : manager.Consistent)
    (signature : Option String) :
    (manager.registerNewCoreElement signature).1.Consistent := by
  rcases manager.registerNewCoreElement_eq signature with
    skipped | ⟨name, -, nonempty, unknown, added⟩
  · rw [skipped]
    exact consistent
  · rw [added]
    exact consistent.addCore nonempty unknown

end CoreManager

/-!
## Runs
-/

/-- An implementation that has been registered with its signature -/
structure Registration where
  coreId : Nat
  implId : Nat
  signature : String
  deriving DecidableEq

/-- The signature leads to the core, and in it to this implementation only. -/
structure Registration.IsReached
    {Implementation : Type}
    (registration : Registration)
    (manager : CoreManager Implementation) : Prop where
  core :
    manager.getCoreId (some registration.signature) = .ok registration.coreId
  listed :
    manager.getSignature registration.coreId registration.implId =
      some registration.signature
  only :
    ∀ implId : Nat,
      manager.getSignature registration.coreId implId =
          some registration.signature →
        implId = registration.implId

/-- The registry, with the numbers and implementations that it has accepted -/
structure RegistryHistory (Implementation : Type) where
  manager : CoreManager Implementation
  coreIds : List Nat
  registrations : List Registration

inductive RegistryAction (Implementation : Type) where
  | coreElement (signature : Option String)
  | implementations
      (coreId : Int)
      (impls : List Implementation)
      (signs : List (Option String))

namespace RegistryHistory

variable {Implementation : Type}

def empty : RegistryHistory Implementation where
  manager := .empty
  coreIds := []
  registrations := []

def registerNewCoreElement
    (history : RegistryHistory Implementation)
    (signature : Option String) : RegistryHistory Implementation :=
  let (manager, coreId) := history.manager.registerNewCoreElement signature
  { history with manager, coreIds := history.coreIds ++ coreId.toList }

/-- The signatures get the numbers after those of the earlier ones. -/
def newRegistrations
    (manager : CoreManager Implementation)
    (coreId : Nat)
    (signs : List String) : List Registration :=
  signs.mapIdx fun place signature =>
    ⟨coreId, (manager.implementations.getD coreId []).length + place, signature⟩

def registerNewImplementations
    (history : RegistryHistory Implementation)
    (coreId : Int)
    (impls : List Implementation)
    (signs : List (Option String)) : RegistryHistory Implementation :=
  match history.manager.registerNewImplementations coreId impls signs with
  | (manager, some _) => { history with manager }
  | (manager, none) =>
      { history with
        manager
        registrations :=
          history.registrations ++
            newRegistrations history.manager coreId.toNat signs.reduceOption }

def next
    (history : RegistryHistory Implementation) :
    RegistryAction Implementation → RegistryHistory Implementation
  | .coreElement signature => history.registerNewCoreElement signature
  | .implementations coreId impls signs =>
      history.registerNewImplementations coreId impls signs

/-- The registration is refused. -/
def Rejects
    (history : RegistryHistory Implementation) :
    RegistryAction Implementation → Prop
  | .coreElement signature =>
      (history.manager.registerNewCoreElement signature).2 = none
  | .implementations coreId impls signs =>
      history.manager.registrationError coreId impls signs ≠ none

/-- Every signature of the action is new, or it is the core's own one. -/
def BringsFresh
    (history : RegistryHistory Implementation) :
    RegistryAction Implementation → Prop
  | .coreElement _ => True
  | .implementations coreId impls signs =>
      history.manager.AcceptsFresh coreId impls signs

/-- The tables are consistent, and nothing that was accepted is lost. -/
structure Sound (history : RegistryHistory Implementation) : Prop where
  consistent : history.manager.Consistent
  coreIds : history.coreIds = range history.manager.coreCount
  reached :
    ∀ registration ∈ history.registrations,
      registration.IsReached history.manager

/-!
## What is accepted stays
-/

variable
  {history : RegistryHistory Implementation}
  {manager : CoreManager Implementation}
  {registration : Registration}

/-- The table of the signatures has the implementation in its place. -/
def IsListed
    (registration : Registration)
    (manager : CoreManager Implementation) : Prop :=
  ∃ row,
    manager.signatures[registration.coreId]? = some row ∧
      row[registration.implId + 1]? = some registration.signature

theorem getSignature_natCast
    (consistent : manager.Consistent)
    (coreId implId : Nat) :
    manager.getSignature coreId implId =
      (manager.signatures[coreId]?).bind (·[implId + 1]?) := by
  rw [CoreManager.getSignature]
  have nonneg : ¬ (implId : Int) + 1 < 0 := by omega
  have place : ((implId : Int) + 1).toNat = implId + 1 := by omega
  by_cases registered : coreId < manager.coreCount
  · have inside : ¬ ((coreId : Int) < 0 ∨ (manager.coreCount : Int) ≤ coreId) := by
      omega
    rw [if_neg inside, if_neg nonneg, place, Int.toNat_natCast]
  · have outside : (coreId : Int) < 0 ∨ (manager.coreCount : Int) ≤ coreId := by
      omega
    have noRow : manager.signatures[coreId]? = none := by
      rw [List.getElem?_eq_none_iff, consistent.signatureCount]
      omega
    rw [if_pos outside, noRow]
    rfl

section

variable (listed : IsListed registration manager)

include listed

theorem IsListed.isReached
    (consistent : manager.Consistent) :
    registration.IsReached manager := by
  obtain ⟨row, isRow, isSignature⟩ := listed
  have member : registration.signature ∈ row :=
    mem_of_getElem? isSignature
  have leads := (consistent.listed registration.signature
    registration.coreId).mpr ⟨row, isRow, member⟩
  have nonempty : registration.signature ≠ "" := by
    intro empty
    rw [empty, consistent.valid] at leads
    exact absurd leads (by simp)
  have once := consistent.once registration.coreId
  rw [CoreManager.implementationSignatures_of_row isRow] at once
  exact {
    core := by simp [CoreManager.getCoreId, nonempty, leads]
    listed := by
      rw [getSignature_natCast consistent, isRow]
      exact isSignature
    only := by
      intro implId alsoListed
      rw [getSignature_natCast consistent, isRow] at alsoListed
      have alsoSignature : row.tail[implId]? = some registration.signature := by
        rw [List.getElem?_tail]
        exact alsoListed
      have ofRegistration :
          row.tail[registration.implId]? = some registration.signature := by
        rw [List.getElem?_tail]
        exact isSignature
      have inside := (List.getElem?_eq_some_iff.mp alsoSignature).1
      refine (List.getElem?_inj inside once).mp ?_
      rw [alsoSignature, ofRegistration] }

theorem IsListed.addCore
    (name : String) :
    IsListed registration (manager.addCore name) := by
  obtain ⟨row, isRow, isSignature⟩ := listed
  exact ⟨row, CoreManager.getElem?_concat_iff.mpr (Or.inl isRow), isSignature⟩

theorem IsListed.addImplementations
    (coreId : Nat)
    (impls : List Implementation)
    (signs : List String) :
    IsListed registration (manager.addImplementations coreId impls signs) := by
  obtain ⟨row, isRow, isSignature⟩ := listed
  refine ⟨_, CoreManager.getElem?_modify_append_iff.mpr ⟨row, isRow, rfl⟩, ?_⟩
  split
  · have inside := (List.getElem?_eq_some_iff.mp isSignature).1
    rw [List.getElem?_append_left inside, isSignature]
  · exact isSignature

end

theorem newRegistrations_listed
    {coreId : Nat}
    (consistent : manager.Consistent)
    (registered : coreId < manager.coreCount)
    (impls : List Implementation)
    {signs : List String}
    (isNew : registration ∈ newRegistrations manager coreId signs) :
    IsListed registration (manager.addImplementations coreId impls signs) := by
  obtain ⟨row, oldImpls, isRow, isImpls, length⟩ := consistent.row registered
  obtain ⟨place, inside, rfl⟩ := mem_mapIdx.mp isNew
  refine ⟨_, CoreManager.getElem?_modify_append_iff.mpr ⟨row, isRow, rfl⟩, ?_⟩
  have number : oldImpls.length + place + 1 = row.length + place := by omega
  rw [if_pos rfl, getD_eq_getElem?_getD, isImpls, getD_some,
    number, List.getElem?_append_right (Nat.le_add_right _ _),
    Nat.add_sub_cancel_left]
  exact List.getElem?_eq_getElem inside

/-- The part of soundness that does not depend on the signatures -/
structure Filed (history : RegistryHistory Implementation) : Prop where
  consistent : history.manager.Consistent
  coreIds : history.coreIds = range history.manager.coreCount
  listed :
    ∀ registration ∈ history.registrations,
      IsListed registration history.manager

section

variable (filed : history.Filed)

include filed

theorem Filed.sound : history.Sound where
  consistent := filed.consistent
  coreIds := filed.coreIds
  reached := by
    intro registration member
    exact (filed.listed registration member).isReached filed.consistent

theorem Filed.coreElement
    (signature : Option String) :
    (history.registerNewCoreElement signature).Filed := by
  rw [registerNewCoreElement]
  rcases history.manager.registerNewCoreElement_eq signature with
    skipped | ⟨name, -, nonempty, unknown, added⟩
  · simp only [skipped]
    exact {
      consistent := filed.consistent
      coreIds := by simp [filed.coreIds]
      listed := filed.listed }
  · simp only [added]
    exact {
      consistent := filed.consistent.addCore nonempty unknown
      coreIds := by
        simp [filed.coreIds, CoreManager.addCore, range_succ]
      listed := by
        intro registration member
        exact (filed.listed registration member).addCore name }

theorem Filed.implementations
    {coreId : Int}
    {impls : List Implementation}
    {signs : List (Option String)}
    (fresh : history.manager.AcceptsFresh coreId impls signs) :
    (history.registerNewImplementations coreId impls signs).Filed := by
  have consistent :=
    (CoreManager.registerNewImplementations_consistent_iff filed.consistent
      coreId impls signs).mpr fresh
  rw [registerNewImplementations]
  rw [CoreManager.registerNewImplementations] at consistent ⊢
  cases outcome : history.manager.registrationError coreId impls signs with
  | some error => exact filed
  | none =>
      rw [outcome] at consistent
      obtain ⟨⟨nonneg, below⟩, -, -⟩ := CoreManager.accepted_iff.mp outcome
      exact {
        consistent := consistent
        coreIds := filed.coreIds
        listed := by
          intro registration member
          rcases mem_append.mp member with isOld | isNew
          · exact (filed.listed registration isOld).addImplementations _ _ _
          · exact newRegistrations_listed filed.consistent (by omega) impls
              isNew }

end

theorem next_of_rejects
    {action : RegistryAction Implementation}
    (rejects : history.Rejects action) :
    (history.next action).manager = history.manager := by
  cases action with
  | coreElement signature =>
      rcases history.manager.registerNewCoreElement_eq signature with
        skipped | ⟨name, -, -, -, added⟩
      · simp [next, registerNewCoreElement, skipped]
      · simp [Rejects, added] at rejects
  | implementations coreId impls signs =>
      obtain ⟨error, outcome⟩ := ne_none_iff_exists'.mp rejects
      simp [next, registerNewImplementations,
        CoreManager.registerNewImplementations, outcome]

theorem next_consistent_iff
    (consistent : history.manager.Consistent)
    (action : RegistryAction Implementation) :
    (history.next action).manager.Consistent ↔ history.BringsFresh action := by
  cases action with
  | coreElement signature =>
      exact iff_of_true
        (CoreManager.registerNewCoreElement_consistent consistent signature)
        trivial
  | implementations coreId impls signs =>
      refine Iff.trans ?_
        (CoreManager.registerNewImplementations_consistent_iff consistent
          coreId impls signs)
      rw [next, registerNewImplementations]
      split
      · rename_i manager error outcome
        rw [outcome]
      · rename_i manager outcome
        rw [outcome]

end RegistryHistory

def registrySystem (Implementation : Type) :
    TransitionSystem (RegistryHistory Implementation)
      (RegistryAction Implementation) where
  start := .empty
  Enabled _ _ := True
  next := RegistryHistory.next

/--
While no registration brings a signature of another core or of another
implementation, the tables stay inverse to each other, the numbers have no gaps
and no implementation is lost; a rejected registration changes nothing.
-/
theorem soundRegistry_of_run
    {Implementation : Type}
    {actions : List (RegistryAction Implementation)}
    {history : RegistryHistory Implementation}
    (run :
      Run (registrySystem Implementation) RegistryHistory.BringsFresh actions
        history) :
    history.Sound ∧
      (∀ action,
        (history.next action).manager.Consistent ↔
          history.BringsFresh action) ∧
      ∀ action, history.Rejects action →
        (history.next action).manager = history.manager := by
  have filed : history.Filed := by
    apply run.invariant
    · exact {
        consistent := CoreManager.Consistent.empty
        coreIds := rfl
        listed := by simp [registrySystem, RegistryHistory.empty] }
    · intro state action stateFiled _ fresh
      cases action with
      | coreElement signature => exact stateFiled.coreElement signature
      | implementations coreId impls signs =>
          exact stateFiled.implementations fresh
  exact ⟨filed.sound, RegistryHistory.next_consistent_iff filed.consistent,
    fun action => RegistryHistory.next_of_rejects⟩

/-- A core with one implementation, which has a signature of its own -/
theorem soundRegistry_oneCore :
    RegistryHistory.Sound
      ((RegistryHistory.empty.next (.coreElement (some "task()"))).next
        (.implementations 0 ["first"] [some "task()First"])) := by
  have fresh :
      (RegistryHistory.empty.next
        (.coreElement (some "task()"))).BringsFresh
          (.implementations 0 ["first"] [some "task()First"]) := by
    intro _
    refine ⟨?_, ?_⟩
    · simp [RegistryHistory.next, RegistryHistory.registerNewCoreElement,
        CoreManager.registerNewCoreElement, RegistryHistory.empty,
        CoreManager.empty, Function.update]
    · decide
  have run :
      Run (registrySystem String) RegistryHistory.BringsFresh
        [.coreElement (some "task()"),
          .implementations 0 ["first"] [some "task()First"]]
        ((RegistryHistory.empty.next (.coreElement (some "task()"))).next
          (.implementations 0 ["first"] [some "task()First"])) :=
    (Run.start.snoc trivial trivial).snoc trivial fresh
  exact (soundRegistry_of_run run).1

/-- The second core takes the signature of an implementation of the first. -/
def takenOver : RegistryHistory String :=
  [ .coreElement (some "first()"),
    .coreElement (some "second()"),
    .implementations 0 ["one"] [some "work()One"],
    .implementations 1 ["other"] [some "work()One"] ].foldl
    RegistryHistory.next .empty

theorem not_sound_takenOver :
    takenOver.registrations =
        [⟨0, 0, "work()One"⟩, ⟨1, 0, "work()One"⟩] ∧
      (takenOver.manager.signatureToCoreId "work()One" = some 1) ∧
        ¬ takenOver.Sound := by
  have leads : takenOver.manager.signatureToCoreId "work()One" = some 1 := by
    decide
  refine ⟨by decide, leads, ?_⟩
  intro sound
  have reached := sound.reached ⟨0, 0, "work()One"⟩ (by decide)
  have core := reached.core
  simp [CoreManager.getCoreId, leads] at core

end DistributedRdf.Cores
