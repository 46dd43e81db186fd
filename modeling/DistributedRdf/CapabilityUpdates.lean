import DistributedRdf.CountedActionSets
import DistributedRdf.FallibleSteps

namespace DistributedRdf.Scheduling

/-!
# What a worker works out about the registered cores

A worker keeps, for each core, the implementations that it can execute and how
many of them at once.  It works this out for all cores, or only for those that
have changed.
-/

variable (Impl : Type)

/-- What a worker looks at when it works out its capabilities. -/
structure WorkerLimits where
  canRun : Impl → Bool
  fitCount : Impl → Int
  maxTaskCount : Int

/-- The arrays are indexed by core, and the slots of a core by implementation. -/
structure Capabilities where
  executableCores : List CoreId
  executableImpls : List (List Impl)
  implSimultaneousTasks : List (List Int)
  coreSimultaneousTasks : List Int
  idealSimultaneousTasks : List Int
  deriving DecidableEq

/-- The entries of one core -/
structure CoreEntry where
  executableCore : Bool
  executableImpls : List Impl
  implSimultaneousTasks : List Int
  coreSimultaneousTasks : Int
  idealSimultaneousTasks : Int
  deriving DecidableEq

namespace WorkerLimits

variable {Impl : Type} (worker : WorkerLimits Impl)

def simultaneousCapacity (impl : Impl) : Int :=
  min (worker.fitCount impl) worker.maxTaskCount

/-- The body of the loop over the implementations of a core; an implementation
is identified by its position. -/
def readImplementation (entry : CoreEntry Impl) (impl : Impl) : CoreEntry Impl :=
  if worker.canRun impl then
    let simultaneousCapacity := worker.simultaneousCapacity impl
    { entry with
      executableCore := entry.executableCore || simultaneousCapacity > 0
      executableImpls :=
        if simultaneousCapacity > 0 then entry.executableImpls ++ [impl]
        else entry.executableImpls
      implSimultaneousTasks :=
        entry.implSimultaneousTasks ++ [simultaneousCapacity]
      idealSimultaneousTasks :=
        max entry.idealSimultaneousTasks simultaneousCapacity }
  else
    { entry with implSimultaneousTasks := entry.implSimultaneousTasks ++ [0] }

variable (impls : List Impl)

/-- The loop over the implementations of a core -/
def readImplementations : CoreEntry Impl :=
  impls.foldl worker.readImplementation
    { executableCore := false
      executableImpls := []
      implSimultaneousTasks := []
      coreSimultaneousTasks := 0
      idealSimultaneousTasks := 0 }

/-- What `updatedFeatures` writes for a core -/
def fullEntry : CoreEntry Impl :=
  let entry := worker.readImplementations impls
  if entry.executableCore then
    { entry with
      coreSimultaneousTasks :=
        min worker.maxTaskCount entry.idealSimultaneousTasks }
  else
    entry

end WorkerLimits

namespace Capabilities

variable {Impl : Type}

def ofEntries (entries : List (CoreEntry Impl)) : Capabilities Impl where
  executableCores :=
    (List.range entries.length).filter fun coreId =>
      entries[coreId]?.any (·.executableCore)
  executableImpls := entries.map (·.executableImpls)
  implSimultaneousTasks := entries.map (·.implSimultaneousTasks)
  coreSimultaneousTasks := entries.map (·.coreSimultaneousTasks)
  idealSimultaneousTasks := entries.map (·.idealSimultaneousTasks)

/-- Reads the arrays at a core; `none` if it is out of their bounds. -/
def entryOf
    (capabilities : Capabilities Impl)
    (coreId : CoreId) : Option (CoreEntry Impl) := do
  return {
    executableCore := coreId ∈ capabilities.executableCores
    executableImpls := ← capabilities.executableImpls[coreId]?
    implSimultaneousTasks := ← capabilities.implSimultaneousTasks[coreId]?
    coreSimultaneousTasks := ← capabilities.coreSimultaneousTasks[coreId]?
    idealSimultaneousTasks := ← capabilities.idealSimultaneousTasks[coreId]? }

end Capabilities

namespace WorkerLimits

variable
  {Impl : Type} (worker : WorkerLimits Impl)
  (cores : List (List Impl))

/-- The arguments are the implementations of each registered core. -/
def updatedFeatures : Capabilities Impl :=
  .ofEntries (cores.map worker.fullEntry)

variable
  (updatedCoreIds : List CoreId)
  (before : Capabilities Impl)

/-- What `updatedCoreElements` writes for a core: the core slots of a core that
is updated are left at 0. -/
def updatedEntry
    (coreId : CoreId) : Option (CoreEntry Impl) :=
  if coreId ∈ updatedCoreIds then
    cores[coreId]?.map worker.readImplementations
  else
    before.entryOf coreId

/-- `none` if an array is indexed out of its bounds -/
def updatedCoreElements : Option (Capabilities Impl) :=
  if ∀ coreId ∈ updatedCoreIds ++ before.executableCores,
      coreId < cores.length then
    ((List.range cores.length).mapM
      (worker.updatedEntry cores updatedCoreIds before)).map .ofEntries
  else
    none

/-! ## Single cores -/

variable (impls : List Impl)

/-- The worker has no slot for any of the implementations. -/
def CannotExecute : Prop :=
  ∀ impl ∈ impls,
    worker.canRun impl = true → worker.simultaneousCapacity impl ≤ 0

variable {worker}

theorem cannotExecute_cons
    {impl : Impl}
    {rest : List Impl} :
    worker.CannotExecute (impl :: rest) ↔
      (worker.canRun impl = true → worker.simultaneousCapacity impl ≤ 0) ∧
        worker.CannotExecute rest := by
  simp [CannotExecute]

/-- A core is executable if one of its implementations has a slot, and then it
has ideal slots. -/
theorem readImplementations_append
    {impls : List Impl}
    {entry : CoreEntry Impl}
    (consistent :
      entry.executableCore = true ↔ 0 < entry.idealSimultaneousTasks)
    (natural : 0 ≤ entry.idealSimultaneousTasks) :
    let after := impls.foldl worker.readImplementation entry
    (after.executableCore = true ↔ 0 < after.idealSimultaneousTasks) ∧
      (after.executableCore = true ↔
        entry.executableCore = true ∨ ¬ worker.CannotExecute impls) ∧
      after.coreSimultaneousTasks = entry.coreSimultaneousTasks := by
  induction impls generalizing entry with
  | nil => exact ⟨consistent, by simp [CannotExecute], rfl⟩
  | cons impl rest hypothesis =>
      have read :
          ((worker.readImplementation entry impl).executableCore = true ↔
              0 < (worker.readImplementation entry impl).idealSimultaneousTasks) ∧
            0 ≤ (worker.readImplementation entry impl).idealSimultaneousTasks ∧
            ((worker.readImplementation entry impl).executableCore = true ↔
              entry.executableCore = true ∨
                ¬ (worker.canRun impl = true →
                  worker.simultaneousCapacity impl ≤ 0)) ∧
            (worker.readImplementation entry impl).coreSimultaneousTasks =
              entry.coreSimultaneousTasks := by
        rw [readImplementation]
        by_cases runs : worker.canRun impl = true
        · simp only [runs, if_true, Bool.or_eq_true, decide_eq_true_eq,
            consistent, true_imp_iff, Int.not_le, gt_iff_lt, and_true]
          omega
        · simp [runs, consistent, natural]
      obtain ⟨readConsistent, readNatural, executable, slots⟩ := read
      have later := hypothesis readConsistent readNatural
      refine ⟨later.1, ?_, later.2.2.trans slots⟩
      rw [List.foldl_cons, later.2.1, executable, cannotExecute_cons,
        not_and_or, or_assoc]

theorem readImplementations_spec (impls : List Impl) :
    let read := worker.readImplementations impls
    (read.executableCore = true ↔ 0 < read.idealSimultaneousTasks) ∧
      (read.executableCore = true ↔ ¬ worker.CannotExecute impls) ∧
      read.coreSimultaneousTasks = 0 := by
  have read := @readImplementations_append Impl worker impls
    ⟨false, [], [], 0, 0⟩ (by simp) (Int.le_refl 0)
  refine ⟨read.1, ?_, read.2.2⟩
  simpa [readImplementations] using read.2.1

theorem executableCore_iff_ideal :
    (worker.readImplementations impls).executableCore = true ↔
      0 < (worker.readImplementations impls).idealSimultaneousTasks :=
  (readImplementations_spec impls).1

theorem executableCore_iff :
    (worker.readImplementations impls).executableCore = true ↔
      ¬ worker.CannotExecute impls :=
  (readImplementations_spec impls).2.1

theorem coreSimultaneousTasks_read :
    (worker.readImplementations impls).coreSimultaneousTasks = 0 :=
  (readImplementations_spec impls).2.2

/-- A full update differs from an incremental one in the core slots. -/
theorem fullEntry_eq :
    { worker.fullEntry impls with coreSimultaneousTasks := 0 } =
      worker.readImplementations impls := by
  have slots :
      (worker.readImplementations impls).coreSimultaneousTasks = 0 :=
    coreSimultaneousTasks_read impls
  rw [fullEntry]
  split
  · rw [← slots]
  · rw [← slots]

theorem coreSimultaneousTasks_fullEntry :
    (worker.fullEntry impls).coreSimultaneousTasks =
      if (worker.fullEntry impls).executableCore then
        min worker.maxTaskCount (worker.fullEntry impls).idealSimultaneousTasks
      else
        0 := by
  have slots :
      (worker.readImplementations impls).coreSimultaneousTasks = 0 :=
    coreSimultaneousTasks_read impls
  by_cases executable : (worker.readImplementations impls).executableCore = true
  · simp [fullEntry, executable]
  · simp [fullEntry, executable, slots]

/-- Nothing but cores that are not executable has no core slots. -/
theorem coreSimultaneousTasks_full :
    (worker.fullEntry impls).coreSimultaneousTasks = 0 ↔
      worker.CannotExecute impls := by
  have slots :
      (worker.readImplementations impls).coreSimultaneousTasks = 0 :=
    coreSimultaneousTasks_read impls
  rw [fullEntry]
  by_cases cannot : worker.CannotExecute impls
  · have notExecutable := (executableCore_iff impls).not.mpr (not_not.mpr cannot)
    simp [notExecutable, slots, cannot]
  · have executable := (executableCore_iff impls).mpr cannot
    have ideal := (executableCore_iff_ideal impls).mp executable
    have positive : 0 < worker.maxTaskCount := by
      simp only [CannotExecute, not_forall, Int.not_le] at cannot
      obtain ⟨impl, _, _, capacity⟩ := cannot
      exact Int.lt_of_lt_of_le capacity (Int.min_le_right _ _)
    simp only [executable, if_true, cannot, iff_false]
    omega

end WorkerLimits

/-! ## All cores -/

namespace Capabilities

variable {Impl : Type}

/-- What is written for a core is read back. -/
theorem entryOf_ofEntries
    (entries : List (CoreEntry Impl))
    (coreId : CoreId) :
    (ofEntries entries).entryOf coreId = entries[coreId]? := by
  simp only [entryOf, ofEntries, List.getElem?_map]
  cases read : entries[coreId]? with
  | none => rfl
  | some entry =>
      obtain ⟨inside, rfl⟩ := List.getElem?_eq_some_iff.mp read
      simp [inside]

/-- Other core slots change nothing else. -/
theorem ofEntries_withSlots
    (entry : CoreId → CoreEntry Impl)
    (slots : CoreId → Int)
    (coreCount : Nat) :
    ofEntries ((List.range coreCount).map fun coreId =>
        { entry coreId with coreSimultaneousTasks := slots coreId }) =
      { ofEntries ((List.range coreCount).map entry) with
        coreSimultaneousTasks := (List.range coreCount).map slots } := by
  have executable (coreId : CoreId) :
      ((List.range coreCount).map fun coreId =>
          { entry coreId with
            coreSimultaneousTasks := slots coreId })[coreId]?.any
              (·.executableCore) =
        ((List.range coreCount).map entry)[coreId]?.any (·.executableCore) := by
    rw [List.getElem?_map, List.getElem?_map, Option.any_map, Option.any_map]
  simp only [ofEntries, executable, List.map_map, List.length_map]
  rfl

/-- The worker is in the state that its last update has left it in: everything
but the core slots is as after a full one. -/
structure Reflects
    (worker : WorkerLimits Impl)
    (cores : List (List Impl))
    (capabilities : Capabilities Impl) : Prop where
  eq :
    { capabilities with
      coreSimultaneousTasks :=
        (worker.updatedFeatures cores).coreSimultaneousTasks } =
      worker.updatedFeatures cores
  length : capabilities.coreSimultaneousTasks.length = cores.length

namespace Reflects

variable
  {worker : WorkerLimits Impl}
  {cores : List (List Impl)}
  {capabilities : Capabilities Impl}

theorem updatedFeatures :
    Reflects worker cores (worker.updatedFeatures cores) where
  eq := rfl
  length := by
    simp [WorkerLimits.updatedFeatures, ofEntries]

variable
  {coreId : CoreId}
  {impls : List Impl}

theorem entryOf
    (reflects : Reflects worker cores capabilities)
    {slots : Int}
    (registered : cores[coreId]? = some impls)
    (ofCore : capabilities.coreSimultaneousTasks[coreId]? = some slots) :
    capabilities.entryOf coreId =
      some { worker.fullEntry impls with coreSimultaneousTasks := slots } := by
  have full := entryOf_ofEntries (cores.map worker.fullEntry) coreId
  have others : ofEntries (cores.map worker.fullEntry) = _ :=
    reflects.eq.symm
  rw [List.getElem?_map, registered, Option.map_some, others] at full
  simp only [Capabilities.entryOf, bind, Option.bind_eq_some_iff, pure,
    Option.some.injEq] at full
  obtain ⟨impls, executable, slotsOf, read, fullSlots, _, ideal, idealRead,
    same⟩ := full
  simp [Capabilities.entryOf, executable, read, ofCore, idealRead, ← same]

/-- The core slots are the ones that a full update works out from the ideal
slots. -/
def CoreSlotsFilled
    (worker : WorkerLimits Impl)
    (capabilities : Capabilities Impl)
    (coreId : CoreId) : Prop :=
  capabilities.coreSimultaneousTasks[coreId]? =
    capabilities.idealSimultaneousTasks[coreId]?.map fun ideal =>
      if coreId ∈ capabilities.executableCores then
        min worker.maxTaskCount ideal
      else
        0

variable (reflects : Reflects worker cores capabilities)

include reflects

theorem coreSlotsFilled_iff
    (registered : cores[coreId]? = some impls) :
    CoreSlotsFilled worker capabilities coreId ↔
      capabilities.coreSimultaneousTasks[coreId]? =
        some (worker.fullEntry impls).coreSimultaneousTasks := by
  have inSlots : coreId < capabilities.coreSimultaneousTasks.length := by
    rw [reflects.length]
    exact (List.getElem?_eq_some_iff.mp registered).1
  have read := reflects.entryOf registered (List.getElem?_eq_getElem inSlots)
  simp only [Capabilities.entryOf, bind, Option.bind_eq_some_iff, pure,
    Option.some.injEq] at read
  obtain ⟨_, _, _, _, _, _, ideal, idealRead, same⟩ := read
  have executable := congrArg CoreEntry.executableCore same
  have idealFull := congrArg CoreEntry.idealSimultaneousTasks same
  simp only at executable idealFull
  rw [CoreSlotsFilled, idealRead, Option.map_some,
    WorkerLimits.coreSimultaneousTasks_fullEntry, ← executable, ← idealFull]
  simp only [decide_eq_true_eq]

/-- What is in sync stays so: the next entry of each core -/
theorem updatedCoreElements
    {newCores : List (List Impl)}
    {updatedCoreIds : List CoreId}
    (registered : ∀ coreId ∈ updatedCoreIds, coreId < newCores.length)
    (covered :
      ∀ coreId, coreId ∉ updatedCoreIds → newCores[coreId]? = cores[coreId]?) :
    worker.updatedCoreElements newCores updatedCoreIds capabilities =
      some
        { worker.updatedFeatures newCores with
          coreSimultaneousTasks :=
            (List.range newCores.length).map fun coreId =>
              if coreId ∈ updatedCoreIds then 0
              else capabilities.coreSimultaneousTasks[coreId]?.getD 0 } := by
  have executable :
      ∀ coreId ∈ capabilities.executableCores, coreId < newCores.length := by
    intro coreId member
    have inOld : coreId ∈ (worker.updatedFeatures cores).executableCores := by
      rw [← reflects.eq]
      exact member
    have old : coreId < cores.length := by
      simpa [WorkerLimits.updatedFeatures, ofEntries] using
        List.mem_range.mp (List.mem_of_mem_filter inOld)
    by_cases updated : coreId ∈ updatedCoreIds
    · exact registered coreId updated
    · by_contra outside
      have missing := covered coreId updated
      rw [List.getElem?_eq_none (Nat.le_of_not_lt outside)] at missing
      exact absurd (List.getElem?_eq_none_iff.mp missing.symm)
        (Nat.not_le_of_lt old)
  have inBounds :
      ∀ coreId ∈ updatedCoreIds ++ capabilities.executableCores,
        coreId < newCores.length := by
    intro coreId member
    rcases List.mem_append.mp member with updated | wasExecutable
    · exact registered coreId updated
    · exact executable coreId wasExecutable
  have entries :
      (List.range newCores.length).mapM
          (worker.updatedEntry newCores updatedCoreIds capabilities) =
        some ((List.range newCores.length).map fun coreId =>
          { worker.fullEntry (newCores[coreId]?.getD []) with
            coreSimultaneousTasks :=
              if coreId ∈ updatedCoreIds then 0
              else capabilities.coreSimultaneousTasks[coreId]?.getD 0 }) := by
    apply mapM_eq_some_map
    intro coreId inRange
    have inside := List.mem_range.mp inRange
    have read := List.getElem?_eq_getElem inside
    rw [WorkerLimits.updatedEntry, read, Option.getD_some]
    by_cases updated : coreId ∈ updatedCoreIds
    · rw [if_pos updated, if_pos updated, Option.map_some,
        WorkerLimits.fullEntry_eq]
    · have old := covered coreId updated
      rw [read] at old
      have inSlots :
          coreId < capabilities.coreSimultaneousTasks.length := by
        rw [reflects.length]
        exact (List.getElem?_eq_some_iff.mp old.symm).1
      have slots := List.getElem?_eq_getElem inSlots
      rw [if_neg updated, if_neg updated, reflects.entryOf old.symm slots, slots,
        Option.getD_some]
  have allCores :
      (List.range newCores.length).map
          (fun coreId => worker.fullEntry (newCores[coreId]?.getD [])) =
        newCores.map worker.fullEntry := by
    apply List.ext_getElem
    · simp
    · intro coreId _ inside
      rw [List.length_map] at inside
      simp [inside]
  rw [WorkerLimits.updatedCoreElements, if_pos inBounds, entries,
    Option.map_some, ofEntries_withSlots, allCores]
  rfl

end Reflects

/--
An incremental update leaves the worker in the state of a full one exactly when
the worker can execute none of the cores that are updated, and the core slots of
the other cores were filled before.
-/
theorem updatedCoreElements_eq_iff
    {worker : WorkerLimits Impl}
    {cores newCores : List (List Impl)}
    {updatedCoreIds : List CoreId}
    {before : Capabilities Impl}
    (reflects : Reflects worker cores before)
    (registered : ∀ coreId ∈ updatedCoreIds, coreId < newCores.length)
    (covered :
      ∀ coreId, coreId ∉ updatedCoreIds → newCores[coreId]? = cores[coreId]?) :
    worker.updatedCoreElements newCores updatedCoreIds before =
        some (worker.updatedFeatures newCores) ↔
      ∀ coreId impls, newCores[coreId]? = some impls →
        if coreId ∈ updatedCoreIds then worker.CannotExecute impls
        else Reflects.CoreSlotsFilled worker before coreId := by
  have full :
      (worker.updatedFeatures newCores).coreSimultaneousTasks =
        newCores.map fun impls =>
          (worker.fullEntry impls).coreSimultaneousTasks := by
    simp [WorkerLimits.updatedFeatures, ofEntries]
  have sameSlots (slots : List Int) :
      { worker.updatedFeatures newCores with coreSimultaneousTasks := slots } =
          worker.updatedFeatures newCores ↔
        slots = (worker.updatedFeatures newCores).coreSimultaneousTasks := by
    constructor
    · intro same
      rw [← same]
    · intro same
      rw [same]
  rw [reflects.updatedCoreElements registered covered, Option.some.injEq,
    sameSlots, full, List.ext_getElem?_iff]
  refine forall_congr' fun coreId => ?_
  cases read : newCores[coreId]? with
  | none =>
      have outside := List.getElem?_eq_none_iff.mp read
      refine iff_of_true ?_ nofun
      rw [List.getElem?_map, List.getElem?_map, read,
        List.getElem?_eq_none (by simpa using outside)]
      rfl
  | some impls =>
      have inside := (List.getElem?_eq_some_iff.mp read).1
      simp only [List.getElem?_map, read, List.getElem?_range inside,
        Option.map_some, Option.some.injEq, forall_eq']
      by_cases updated : coreId ∈ updatedCoreIds
      · rw [if_pos updated, if_pos updated, eq_comm,
          WorkerLimits.coreSimultaneousTasks_full]
      · have old := covered coreId updated
        rw [read] at old
        have inSlots : coreId < before.coreSimultaneousTasks.length := by
          rw [reflects.length]
          exact (List.getElem?_eq_some_iff.mp old.symm).1
        rw [if_neg updated, if_neg updated,
          reflects.coreSlotsFilled_iff old.symm,
          List.getElem?_eq_getElem inSlots, Option.getD_some, Option.some.injEq]

/-- Implementations are given by how many of them fit into the worker. -/
def fourTasks : WorkerLimits Int where
  canRun _ := true
  fitCount impl := impl
  maxTaskCount := 4

/-- The new core does not fit into the worker. -/
theorem updatedCoreElements_unfitting :
    fourTasks.updatedCoreElements [[2, 7], [0]] [1]
        (fourTasks.updatedFeatures [[2, 7]]) =
      some (fourTasks.updatedFeatures [[2, 7], [0]]) := by
  refine (updatedCoreElements_eq_iff .updatedFeatures (by decide) ?_).mpr ?_
  · rintro (_ | _ | coreId) notUpdated
    · rfl
    · exact absurd (List.mem_singleton_self 1) notUpdated
    · rfl
  · rintro (_ | _ | coreId) impls read
    · show (_ : Option Int) = _
      decide
    · cases read
      show ∀ impl ∈ [0], _ → _ ≤ (0 : Int)
      decide
    · cases read

/-- The new core fits, but gets no core slots. -/
theorem not_updatedCoreElements_fitting :
    (∀ coreId ∈ [1], coreId < [[2], [3]].length) ∧
      (∀ coreId ∉ [1], [[2], [3]][coreId]? = [[2]][coreId]?) ∧
      ¬ fourTasks.updatedCoreElements [[2], [3]] [1]
          (fourTasks.updatedFeatures [[2]]) =
        some (fourTasks.updatedFeatures [[2], [3]]) := by
  refine ⟨by decide, ?_, by decide⟩
  rintro (_ | _ | coreId) notUpdated
  · rfl
  · exact absurd (List.mem_singleton_self 1) notUpdated
  · rfl

end Capabilities

end DistributedRdf.Scheduling
