import DistributedRdf.CreationOrder
import DistributedRdf.SlotCounts

namespace DistributedRdf.Resources

open Execution Java Scheduling MethodResourceDescription CloudManager List
open Option Outcome ResourceCreationRequest MethodResourceDescription

/-!
# Cores that pending requests are counted for

A provider keeps, for each of its types, how many tasks of each implementation
run there at once.  A request takes the arrays of its type with it, while the
provider makes new ones when cores are registered.
-/

/-- The implementations of a core -/
abbrev Core := List (CoreImplementation MethodResourceDescription)

/-- Services have no slots, and `none` is an exception. -/
def simultaneousTasks
    (rd : MethodResourceDescription)
    (impl : CoreImplementation MethodResourceDescription) : Option Int :=
  match impl.taskType with
  | .METHOD => rd.canHostSimultaneously impl.requirements
  | .SERVICE => some 0

/-- A count below zero is not more than the zero that the slots start from. -/
def slotsImpl (rd : MethodResourceDescription) (core : Core) : Option (List Nat) :=
  core.mapM fun impl => (simultaneousTasks rd impl).map Int.toNat

/-- The arrays that `newCoreElementsDetected` makes for a type -/
def newSlots
    (rd : MethodResourceDescription)
    (slots : List (List Nat))
    (cores : List Core)
    (newCores : List Nat) : Option (List (List Nat)) :=
  (range cores.length).mapM fun coreId =>
    if coreId ∈ newCores then
      slotsImpl rd ((cores[coreId]?).getD [])
    else
      some ((slots[coreId]?).getD [])

/-- Every number is there. -/
def AllCounted (rd : MethodResourceDescription) (cores : List Core) : Prop :=
  ∀ core ∈ cores, ∀ impl ∈ core, (simultaneousTasks rd impl).isSome

def row (rd : MethodResourceDescription) (core : Core) : List Nat :=
  core.map fun impl => ((simultaneousTasks rd impl).getD 0).toNat

/-- The most tasks of an implementation of the core that run at once -/
def offeredTasks (rd : MethodResourceDescription) (core : Core) : Nat :=
  (row rd core).foldl max 0

/-- Implementations are added, and the list names the cores that get some. -/
structure Registers
    (before after : List Core)
    (newCores : List Nat) : Prop where
  known : ∀ coreId ∈ newCores, coreId < after.length
  appended :
    ∀ coreId : Nat,
      ((before[coreId]?).getD []) <+: ((after[coreId]?).getD [])
  covered :
    ∀ coreId : Nat, after[coreId]? ≠ before[coreId]? → coreId ∈ newCores

section Slots

variable
  {rd : MethodResourceDescription}
  {core : Core}

theorem slotsImpl_of_counted
    (counted : ∀ impl ∈ core, (simultaneousTasks rd impl).isSome) :
    slotsImpl rd core = some (row rd core) := by
  apply mapM_eq_some_map
  intro impl isImpl
  obtain ⟨count, isCount⟩ := isSome_iff_exists.mp (counted impl isImpl)
  rw [isCount]
  rfl

theorem row_of_slotsImpl
    {slots : List Nat}
    (isSlots : slotsImpl rd core = some slots) :
    slots = row rd core := by
  have entries := mapM_eq_some_iff.mp isSlots
  have counted : ∀ impl ∈ core, (simultaneousTasks rd impl).isSome := by
    intro impl isImpl
    have isEntry := mem_map_of_mem
      (f := fun impl => (simultaneousTasks rd impl).map Int.toNat) isImpl
    rw [entries] at isEntry
    obtain ⟨count, -, same⟩ := mem_map.mp isEntry
    exact isSome_map.symm.trans (by rw [← same]; rfl)
  exact some.inj (isSlots.symm.trans (slotsImpl_of_counted counted))

theorem rows_of_loaded
    {cores : List Core}
    {slots : List (List Nat)}
    (loaded : cores.mapM (slotsImpl rd) = some slots) :
    slots = cores.map (row rd) := by
  have entries := mapM_eq_some_iff.mp loaded
  apply ext_getElem?
  intro coreId
  have entry := congrArg (·[coreId]?) entries
  simp only [getElem?_map] at entry ⊢
  cases isCore : cores[coreId]? with
  | none =>
      rw [isCore, map_none] at entry
      exact map_eq_none_iff.mp entry.symm
  | some core =>
      rw [isCore, map_some] at entry
      obtain ⟨found, isFound, same⟩ := map_eq_some_iff.mp entry.symm
      rw [isFound, row_of_slotsImpl same.symm]
      rfl

/-- The rows of cores that have not changed are copied. -/
theorem newSlots_eq
    {before after : List Core}
    {newCores : List Nat}
    (registers : Registers before after newCores)
    (counted : AllCounted rd after) :
    newSlots rd (before.map (row rd)) after newCores =
      some (after.map (row rd)) := by
  have rows :
      after.map (row rd) =
        (range after.length).map fun coreId =>
          row rd ((after[coreId]?).getD []) := by
    apply ext_getElem
    · simp
    · intro coreId isCore _
      rw [length_map] at isCore
      simp [getElem?_eq_getElem isCore]
  rw [rows]
  apply mapM_eq_some_map
  intro coreId inRange
  have isCore : coreId < after.length := mem_range.mp inRange
  by_cases isNew : coreId ∈ newCores
  · rw [if_pos isNew]
    apply slotsImpl_of_counted
    rw [getElem?_eq_getElem isCore]
    exact counted _ (getElem_mem isCore)
  · rw [if_neg isNew]
    have unchanged : after[coreId]? = before[coreId]? := by
      by_contra changed
      exact isNew (registers.covered coreId changed)
    rw [unchanged, getElem?_map]
    cases before[coreId]? <;> rfl

theorem le_foldl_max (slots : List Nat) (found : Nat) :
    found ≤ slots.foldl max found := by
  induction slots generalizing found with
  | nil => exact Nat.le_refl _
  | cons count rest hypothesis =>
      exact (Nat.le_max_left found count).trans (hypothesis _)

theorem offeredTasks_mono
    {before after : Core}
    (appended : before <+: after) :
    offeredTasks rd before ≤ offeredTasks rd after := by
  obtain ⟨added, rfl⟩ := appended
  unfold offeredTasks row
  rw [map_append, foldl_append]
  exact le_foldl_max _ _

/-- The slots that are read off the rows are the tasks that are offered. -/
theorem foldl_rows
    (cores : List Core)
    (coreId : Nat) :
    ((((cores.map (row rd))[coreId]?).getD []).foldl max 0) =
      offeredTasks rd ((cores[coreId]?).getD []) := by
  rw [getElem?_map]
  cases cores[coreId]? <;> rfl

end Slots

/-- The providers as they are loaded, with their types -/
structure TypedSetup extends CloudSetup where
  description : String → String → MethodResourceDescription
  cores : List Core
  slots : String → String → List (List Nat)
  /-- `new Type(rd)` for each of them -/
  loaded :
    ∀ provider, ∀ type ∈ types provider,
      cores.mapM (slotsImpl (description provider type)) =
        some (slots provider type)

/-- The cloud manager next to the registered cores -/
structure RegisteredCloud where
  history : CloudHistory
  cores : List Core
  slots : String → String → List (List Nat)

inductive CloudCall where
  /-- The type that each provider selects, and what it costs -/
  | askForResources
      (selected : String → Option (String × Int))
      (answer : ConnectorAnswer)
  | confirmedRequest (rcr : ResourceCreationRequest) (vmName type : String)
  | refusedRequest (rcr : ResourceCreationRequest)
  /-- Cores are registered, and those that have changed are updated. -/
  | coreElementUpdates (cores : List Core) (newCores : List Nat)

namespace RegisteredCloud

variable (setup : TypedSetup)

def core (state : RegisteredCloud) (coreId : Nat) : Core :=
  (state.cores[coreId]?).getD []

/-- A provider has an entry for each type that it selects. -/
def offers
    (state : RegisteredCloud)
    (selected : String → Option (String × Int))
    (provider : String) : Option CloudOffer :=
  (selected provider).map fun (type, value) => {
    type := type
    value := value
    simultaneousCounts := state.slots provider type
  }

/-- A registration that is given up with an exception is no step. -/
def Enabled (state : RegisteredCloud) : CloudCall → Prop
  | .askForResources selected _ =>
      ∀ provider type value,
        selected provider = some (type, value) → type ∈ setup.types provider
  | .confirmedRequest rcr _ _ | .refusedRequest rcr =>
      rcr ∈ state.history.creating
  | .coreElementUpdates cores newCores =>
      Registers state.cores cores newCores ∧
        ∀ provider, ∀ type ∈ setup.types provider,
          AllCounted (setup.description provider type) cores

def next (state : RegisteredCloud) : CloudCall → RegisteredCloud
  | .askForResources selected answer =>
      { state with
        history :=
          state.history.next (.askForResources (state.offers selected) answer) }
  | .confirmedRequest rcr vmName type =>
      { state with
        history := state.history.next (.confirmedRequest rcr vmName type) }
  | .refusedRequest rcr =>
      { state with history := state.history.next (.refusedRequest rcr) }
  | .coreElementUpdates cores newCores =>
      { history := state.history.next .newCoreElementsDetected
        cores := cores
        slots := fun provider type =>
          (newSlots (setup.description provider type)
            (state.slots provider type) cores newCores).getD
              (state.slots provider type) }

def start : RegisteredCloud where
  history := CloudHistory.start setup.toCloudSetup
  cores := setup.cores
  slots := setup.slots

def system : TransitionSystem RegisteredCloud CloudCall where
  start := start setup
  Enabled := Enabled setup
  next := next setup

/-- The most tasks of a core that what is requested runs at once -/
def offered
    (state : RegisteredCloud)
    (rcr : ResourceCreationRequest)
    (coreId : Nat) : Nat :=
  offeredTasks (setup.description rcr.provider rcr.requested) (state.core coreId)

/-- The counts are what the pending requests offer. -/
def PendingCounted (state : RegisteredCloud) : Prop :=
  ∀ coreId,
    state.history.manager.pendingCoreCount coreId =
        (state.history.manager.pendingRequests.map fun rcr =>
          (state.offered setup rcr coreId : Int)).sum ∧
      0 ≤ state.history.manager.pendingCoreCount coreId

/-- A registration offers nothing new to the requests that are pending. -/
def OffersAsBefore (state : RegisteredCloud) : CloudCall → Prop
  | .coreElementUpdates cores _ =>
      ∀ rcr ∈ state.history.manager.pendingRequests, ∀ coreId : Nat,
        offeredTasks (setup.description rcr.provider rcr.requested)
            ((cores[coreId]?).getD []) =
          state.offered setup rcr coreId
  | .askForResources .. | .confirmedRequest .. | .refusedRequest _ => True

/-- What is kept in arrays, whether it is what is offered or not -/
structure Kept (state : RegisteredCloud) : Prop where
  counted :
    ∀ coreId,
      state.history.manager.pendingCoreCount coreId =
        (state.history.manager.pendingRequests.map fun rcr =>
          (rcr.coreSlots coreId : Int)).sum
  creating :
    state.history.manager.pendingRequests = state.history.creating
  atMost :
    ∀ rcr ∈ state.history.manager.pendingRequests, ∀ coreId,
      rcr.coreSlots coreId ≤ state.offered setup rcr coreId
  slots :
    ∀ provider, ∀ type ∈ setup.types provider,
      state.slots provider type =
        state.cores.map (row (setup.description provider type))

/-!
## One call
-/

variable {setup} {state : RegisteredCloud}

theorem eq_of_sum_eq
    {Item : Type}
    {items : List Item}
    {lower upper : Item → Nat}
    (atMost : ∀ item ∈ items, lower item ≤ upper item)
    (sameSum :
      (items.map fun item => (lower item : Int)).sum =
        (items.map fun item => (upper item : Int)).sum) :
    ∀ item ∈ items, lower item = upper item := by
  induction items with
  | nil => exact fun item isNone => nomatch isNone
  | cons first rest hypothesis =>
      obtain ⟨firstAtMost, restAtMost⟩ := forall_mem_cons.mp atMost
      have restSum :
          (rest.map fun item => (lower item : Int)).sum ≤
            (rest.map fun item => (upper item : Int)).sum :=
        sum_le_sum fun item isItem =>
          Int.ofNat_le.mpr (restAtMost item isItem)
      simp only [map_cons, sum_cons] at sameSum
      refine forall_mem_cons.mpr ⟨by omega, ?_⟩
      exact hypothesis restAtMost (by omega)

theorem Kept.pendingCounted_iff (kept : state.Kept setup) :
    state.PendingCounted setup ↔
      ∀ rcr ∈ state.history.manager.pendingRequests, ∀ coreId,
        rcr.coreSlots coreId = state.offered setup rcr coreId := by
  constructor
  · intro counted rcr isPending coreId
    exact eq_of_sum_eq
      (fun other isOther => kept.atMost other isOther coreId)
      ((kept.counted coreId).symm.trans (counted coreId).1) rcr isPending
  · intro same coreId
    have counted := kept.counted coreId
    constructor
    · rw [counted]
      congr 1
      exact map_congr_left fun rcr isPending =>
        congrArg Nat.cast (same rcr isPending coreId)
    · rw [counted]
      apply sum_nonneg
      intro count isCount
      obtain ⟨rcr, -, rfl⟩ := mem_map.mp isCount
      exact Int.natCast_nonneg _

variable (setup)

/-- A request that is new takes the arrays of its type. -/
structure NewRequest
    (state : RegisteredCloud)
    (rcr : ResourceCreationRequest) : Prop where
  type : rcr.requested ∈ setup.types rcr.provider
  slots :
    rcr.requestedSimultaneousTaskCount =
      state.slots rcr.provider rcr.requested

/-- What has changed when the providers were asked -/
structure Asked
    (before after : RegisteredCloud)
    (requested : Option ResourceCreationRequest) : Prop where
  isNew : ∀ rcr ∈ requested, NewRequest setup before rcr
  cores : after.cores = before.cores
  slots : after.slots = before.slots
  creating :
    after.history.creating = before.history.creating ++ requested.toList
  pendingRequests :
    after.history.manager.pendingRequests =
      before.history.manager.pendingRequests ++ requested.toList
  pendingCoreCount :
    ∀ coreId,
      after.history.manager.pendingCoreCount coreId =
        before.history.manager.pendingCoreCount coreId +
          (requested.elim 0 fun rcr => (rcr.coreSlots coreId : Int))

variable {setup}

theorem askForResources_asked
    {selected : String → Option (String × Int)}
    {answer : ConnectorAnswer}
    (enabled : Enabled setup state (.askForResources selected answer)) :
    ∃ requested,
      Asked setup state (next setup state (.askForResources selected answer))
        requested := by
  have nothing
      (sameManager :
        ∃ manager,
          state.history.manager.askForResources state.history.nextId
              (state.offers selected) answer = (manager, none) ∧
            manager.pendingRequests = state.history.manager.pendingRequests ∧
            manager.pendingCoreCount =
              state.history.manager.pendingCoreCount) :
      Asked setup state (next setup state (.askForResources selected answer))
        none := by
    obtain ⟨manager, asked, pending, counts⟩ := sameManager
    constructor
    case isNew => exact fun rcr isNone => nomatch isNone
    case cores => rfl
    case slots => rfl
    case creating => simp [next, CloudHistory.next, asked]
    case pendingRequests => simp [next, CloudHistory.next, asked, pending]
    case pendingCoreCount => simp [next, CloudHistory.next, asked, counts]
  cases isBest :
      state.history.manager.bestOffer (state.offers selected) with
  | none =>
      refine ⟨none, nothing ⟨state.history.manager, ?_, rfl, rfl⟩⟩
      rw [askForResources, isBest]
  | some found =>
      obtain ⟨name, offer⟩ := found
      have offered := (CloudHistory.bestOffer_spec isBest).2
      obtain ⟨⟨type, value⟩, isSelected, rfl⟩ :=
        map_eq_some_iff.mp offered
      have isType := enabled name type value isSelected
      cases answer with
      | accepted =>
          refine ⟨some ⟨state.history.nextId, name, type,
            state.slots name type⟩, ?_, rfl, rfl, ?_, ?_, ?_⟩
          · intro rcr isRequested
            cases isRequested
            exact ⟨isType, rfl⟩
          · simp [next, CloudHistory.next, askForResources,
              isBest]
          · simp [next, CloudHistory.next, askForResources,
              isBest, addPending, setProvider]
          · simp [next, CloudHistory.next, askForResources,
              isBest, addPending, setProvider]
      | declined | thrown =>
          refine ⟨none, nothing ⟨state.history.manager.setProvider name
            (state.history.manager.providers name).turnON, ?_, rfl, rfl⟩⟩
          rw [askForResources, isBest]

/-- What has changed when the creation of a request ended -/
structure Resolved
    (before after : RegisteredCloud)
    (rcr : ResourceCreationRequest) : Prop where
  cores : after.cores = before.cores
  slots : after.slots = before.slots
  creating : after.history.creating = before.history.creating.erase rcr
  pendingRequests :
    after.history.manager.pendingRequests =
      before.history.manager.pendingRequests.erase rcr
  pendingCoreCount :
    ∀ coreId,
      after.history.manager.pendingCoreCount coreId =
        before.history.manager.pendingCoreCount coreId - rcr.coreSlots coreId

theorem confirmedRequest_resolved
    (rcr : ResourceCreationRequest)
    (vmName type : String) :
    Resolved state (next setup state (.confirmedRequest rcr vmName type))
      rcr := by
  refine ⟨rfl, rfl, rfl, ?_, fun coreId => ?_⟩
  · simp [next, CloudHistory.next, confirmedRequest,
      state_onState, setProvider,
      removePending]
  · simp [next, CloudHistory.next, confirmedRequest,
      state_onState, setProvider,
      removePending]

theorem refusedRequest_resolved (rcr : ResourceCreationRequest) :
    Resolved state (next setup state (.refusedRequest rcr)) rcr :=
  ⟨rfl, rfl, rfl, rfl, fun _ => rfl⟩

variable {rcr : ResourceCreationRequest}

theorem NewRequest.coreSlots_eq
    (kept : state.Kept setup)
    (isNew : NewRequest setup state rcr)
    (coreId : Nat) :
    rcr.coreSlots coreId = state.offered setup rcr coreId := by
  rw [coreSlots, isNew.slots,
    kept.slots _ _ isNew.type, foldl_rows]
  rfl

variable {after : RegisteredCloud}

theorem kept_asked
    {requested : Option ResourceCreationRequest}
    (kept : state.Kept setup)
    (asked : Asked setup state after requested) :
    after.Kept setup := by
  have sameOffered (rcr : ResourceCreationRequest) (coreId : Nat) :
      after.offered setup rcr coreId = state.offered setup rcr coreId := by
    unfold offered core
    rw [asked.cores]
  constructor
  case counted =>
    intro coreId
    rw [asked.pendingCoreCount, kept.counted, asked.pendingRequests,
      map_append, sum_append]
    cases requested with
    | none => rfl
    | some rcr => simp
  case creating => rw [asked.pendingRequests, asked.creating, kept.creating]
  case atMost =>
    intro rcr isPending coreId
    rw [sameOffered]
    rw [asked.pendingRequests] at isPending
    rcases mem_append.mp isPending with before | isRequested
    · exact kept.atMost rcr before coreId
    · exact Nat.le_of_eq
        ((asked.isNew rcr (mem_toList.mp isRequested)).coreSlots_eq kept
          coreId)
  case slots =>
    rw [asked.cores, asked.slots]
    exact kept.slots

theorem kept_resolved
    (kept : state.Kept setup)
    (isCreating : rcr ∈ state.history.creating)
    (resolved : Resolved state after rcr) :
    after.Kept setup := by
  constructor
  case counted =>
    intro coreId
    rw [resolved.pendingCoreCount, kept.counted, resolved.pendingRequests,
      kept.creating]
    exact (CloudHistory.slots_erase_creating isCreating coreId).symm
  case creating =>
    rw [resolved.pendingRequests, resolved.creating, kept.creating]
  case atMost =>
    intro other isPending coreId
    rw [resolved.pendingRequests] at isPending
    unfold offered core
    rw [resolved.cores]
    exact kept.atMost other (mem_of_mem_erase isPending) coreId
  case slots =>
    rw [resolved.cores, resolved.slots]
    exact kept.slots

variable {call : CloudCall}

theorem kept_next
    (kept : state.Kept setup)
    (enabled : Enabled setup state call) :
    (next setup state call).Kept setup := by
  cases call with
  | askForResources selected answer =>
      obtain ⟨requested, asked⟩ := askForResources_asked enabled
      exact kept_asked kept asked
  | confirmedRequest rcr vmName type =>
      exact kept_resolved kept enabled (confirmedRequest_resolved rcr vmName type)
  | refusedRequest rcr =>
      exact kept_resolved kept enabled (refusedRequest_resolved rcr)
  | coreElementUpdates cores newCores =>
      obtain ⟨registers, counted⟩ := enabled
      constructor
      case counted => exact fun coreId => rfl
      case creating => exact kept.creating
      case atMost =>
        intro rcr isPending coreId
        exact (kept.atMost rcr isPending coreId).trans
          (offeredTasks_mono (registers.appended coreId))
      case slots =>
        intro provider type isType
        change (newSlots (setup.description provider type)
          (state.slots provider type) cores newCores).getD _ = _
        rw [kept.slots provider type isType,
          newSlots_eq registers (counted provider type isType)]
        rfl

/-- Only registrations can make the counts wrong. -/
theorem pendingCounted_next_iff
    (pendingCounted : state.PendingCounted setup)
    (kept : state.Kept setup)
    (enabled : Enabled setup state call) :
    (next setup state call).PendingCounted setup ↔
      state.OffersAsBefore setup call := by
  have before := kept.pendingCounted_iff.mp pendingCounted
  rw [(kept_next kept enabled).pendingCounted_iff]
  cases call with
  | askForResources selected answer =>
      obtain ⟨requested, asked⟩ := askForResources_asked enabled
      refine iff_of_true (fun rcr isPending coreId => ?_) trivial
      unfold offered core
      rw [asked.cores]
      rw [asked.pendingRequests] at isPending
      rcases mem_append.mp isPending with isBefore | isRequested
      · exact before rcr isBefore coreId
      · exact (asked.isNew rcr (mem_toList.mp isRequested)).coreSlots_eq kept
          coreId
  | confirmedRequest rcr vmName type =>
      have resolved :=
        @confirmedRequest_resolved setup state rcr vmName type
      refine iff_of_true (fun other isPending coreId => ?_) trivial
      rw [resolved.pendingRequests] at isPending
      exact before other (mem_of_mem_erase isPending) coreId
  | refusedRequest rcr =>
      refine iff_of_true (fun other isPending coreId => ?_) trivial
      exact before other (mem_of_mem_erase isPending) coreId
  | coreElementUpdates cores newCores =>
      refine forall₂_congr fun rcr isPending => forall_congr' fun coreId => ?_
      rw [before rcr isPending coreId]
      exact eq_comm

theorem kept_start : (start setup).Kept setup where
  counted _ := rfl
  creating := rfl
  atMost _ isNone := nomatch isNone
  slots provider type isType :=
    rows_of_loaded (setup.loaded provider type isType)

/-- Only the units of one processor are assigned. -/
def ofUnits (units : Int) : MethodResourceDescription :=
  empty.addProcessor ⟨.unassigned, units⟩

/-- One provider, whose only type has two units, and no cores yet -/
def twoUnits : TypedSetup where
  toCloudSetup := CloudHistory.singlePlace
  description _ _ := ofUnits 2
  cores := []
  slots _ _ := []
  loaded _ _ _ := rfl

def oneUnitCore : Core :=
  [⟨.METHOD, ofUnits 1⟩]

def registration : CloudCall :=
  .coreElementUpdates [oneUnitCore] [0]

def selectSmall : String → Option (String × Int) :=
  fun _ => some ("small", 1)

theorem registers_oneUnitCore : Registers [] [oneUnitCore] [0] where
  known coreId isNew := by
    rw [mem_singleton.mp isNew]
    exact Nat.zero_lt_one
  appended coreId := nil_prefix
  covered coreId changed := by
    cases coreId with
    | zero => exact mem_cons_self
    | succ coreId => exact absurd rfl changed

theorem enabled_registration
    (noCores : state.cores = []) :
    Enabled twoUnits state registration := by
  refine ⟨noCores ▸ registers_oneUnitCore, ?_⟩
  intro provider type isType core isCore impl isImpl
  rw [mem_singleton.mp isCore] at isImpl
  rw [mem_singleton.mp isImpl]
  rfl

theorem type_of_selectSmall
    (provider type : String)
    (value : Int)
    (isSelected : selectSmall provider = some (type, value)) :
    type ∈ twoUnits.types provider := by
  cases isSelected
  exact Finset.mem_singleton_self _

/-- The core is known when the machine is asked for. -/
def registeredFirst : List CloudCall :=
  [registration, .askForResources selectSmall .accepted,
    .confirmedRequest ⟨0, "provider", "small", [[2]]⟩ "vm" "small"]

/-- The core is registered while the machine is created. -/
def registeredLater : List CloudCall :=
  [.askForResources selectSmall .accepted, registration]

end RegisteredCloud

end DistributedRdf.Resources
