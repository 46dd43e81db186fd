import DistributedRdf.ThreadBinding
import DistributedRdf.TransitionSystem

namespace DistributedRdf.Nio

open Java Execution Function List

/-!
# Binding of jobs to units without a map

The units of the resource are numbered.  A job gets the first units that are
free; a table says which job holds each unit, or `-1`.
-/

structure BindToResource where
  bindedComputingUnits : List Int
  deriving DecidableEq

/--
The scan of the units from number `coreId` on, with the units that are assigned
already.  It returns the units that it leaves behind, and no assignment when a
unit does not fit into the array.
-/
def assignFreeUnits (jobId : JobId) (numCUs : Nat) :
    (coreId : Nat) → (units : List Int) → (assignedCoreUnits : List Nat) →
      List Int × Option (List Nat)
  | _, [], assignedCoreUnits => ([], some assignedCoreUnits)
  | coreId, unit :: rest, assignedCoreUnits =>
      if unit = -1 then
        if assignedCoreUnits.length < numCUs then
          let assigned := assignedCoreUnits ++ [coreId]
          if assigned.length = numCUs then
            ((jobId : Int) :: rest, some assigned)
          else
            let (after, outcome) :=
              assignFreeUnits jobId numCUs (coreId + 1) rest assigned
            ((jobId : Int) :: after, outcome)
        else
          -- the unit is taken before the array refuses it
          ((jobId : Int) :: rest, none)
      else if assignedCoreUnits.length = numCUs then
        (unit :: rest, some assignedCoreUnits)
      else
        let (after, outcome) :=
          assignFreeUnits jobId numCUs (coreId + 1) rest assignedCoreUnits
        (unit :: after, outcome)

namespace BindToResource

/-- `new BindToResource(numThreads)` -/
def new (numThreads : Nat) : BindToResource where
  bindedComputingUnits := replicate numThreads (-1)

variable (binder : BindToResource)

def releaseComputingUnits
    (jobId : JobId) : BindToResource where
  bindedComputingUnits :=
    binder.bindedComputingUnits.map fun (unit : Int) =>
      if unit = jobId then -1 else unit

def bindComputingUnits
    (jobId : JobId)
    (numCUs : Nat) : Outcome BindToResource BindResult :=
  match assignFreeUnits jobId numCUs 0 binder.bindedComputingUnits [] with
  | (units, none) => .raised ⟨units⟩ .indexOutOfBounds
  | (units, some assignedCoreUnits) =>
      if assignedCoreUnits.length = numCUs then
        .returned ⟨units⟩ (.bound (assignedCoreUnits.map Int.ofNat))
      else
        .returned (releaseComputingUnits ⟨units⟩ jobId)
          .unsufficientAvailableComputingUnits

/-- The job that holds a unit, or `-1`. -/
def holder (unit : Nat) : Option Int :=
  binder.bindedComputingUnits[unit]?

def numFree : Nat :=
  binder.bindedComputingUnits.count (-1)

def HoldsNothing (jobId : JobId) : Prop :=
  ∀ unit, binder.holder unit ≠ some (jobId : Int)

variable (before : BindToResource)

/-- The job got as many different units as it asked for, all of them free. -/
structure Granted
    (jobId : JobId)
    (numCUs : Nat)
    (units : List Nat)
    (after : BindToResource) : Prop where
  different : units.Nodup
  enough : units.length = numCUs
  free : ∀ unit ∈ units, before.holder unit = some (-1)
  holders :
    ∀ unit,
      after.holder unit =
        if unit ∈ units then some (jobId : Int) else before.holder unit

/-- What is promised of a bind: it is served if and only if it can be. -/
structure BindMeets
    (jobId : JobId)
    (numCUs : Nat) : Prop where
  served :
    numCUs ≤ before.numFree →
      ∃ after units,
        before.bindComputingUnits jobId numCUs =
            .returned after (.bound (units.map Int.ofNat)) ∧
          Granted before jobId numCUs units after
  refused :
    before.numFree < numCUs →
      before.bindComputingUnits jobId numCUs =
        .returned before .unsufficientAvailableComputingUnits

/-- A release frees the units of the job and no others. -/
def ReleaseMeets (jobId : JobId) : Prop :=
  ∀ unit,
    (before.releaseComputingUnits jobId).holder unit =
      if before.holder unit = some (jobId : Int) then some (-1)
      else before.holder unit

/--
The scan tests the count only after it has taken a unit: with nothing to assign
it goes wrong at a free first unit.
-/
def FitsScan (numCUs : Nat) : Prop :=
  numCUs = 0 → before.holder 0 ≠ some (-1)

/-- A bind that is refused takes everything away that the job holds. -/
def KeepsRefused
    (jobId : JobId)
    (numCUs : Nat) : Prop :=
  before.numFree < numCUs → before.HoldsNothing jobId

end BindToResource

/-!
## The scan
-/

/-- The free units that the scan still assigns -/
def takenUnits
    (numCUs coreId : Nat)
    (units : List Int)
    (assignedCoreUnits : List Nat) : List Nat :=
  (units.idxsOf (-1) coreId).take (numCUs - assignedCoreUnits.length)

theorem le_of_mem_takenUnits
    {numCUs coreId number : Nat}
    {units : List Int}
    {assignedCoreUnits : List Nat}
    (taken : number ∈ takenUnits numCUs coreId units assignedCoreUnits) :
    coreId ≤ number :=
  ge_of_mem_idxsOf _ (List.mem_of_mem_take taken)

/-- The scan takes the first free units, as many as are missing. -/
theorem assignFreeUnits_spec
    (jobId : JobId)
    {numCUs coreId : Nat}
    {units : List Int}
    {assignedCoreUnits : List Nat}
    (missing : assignedCoreUnits.length < numCUs) :
    ∃ after,
      assignFreeUnits jobId numCUs coreId units assignedCoreUnits =
          (after,
            some (assignedCoreUnits ++
              takenUnits numCUs coreId units assignedCoreUnits)) ∧
        ∀ place,
          after[place]? =
            (units[place]?).map fun unit =>
              if coreId + place ∈
                  takenUnits numCUs coreId units assignedCoreUnits then
                (jobId : Int)
              else unit := by
  induction units generalizing coreId assignedCoreUnits with
  | nil => exact ⟨[], by simp [assignFreeUnits, takenUnits], by simp⟩
  | cons unit rest hypothesis =>
      by_cases free : unit = -1
      · have more : (assignedCoreUnits ++ [coreId]).length =
            assignedCoreUnits.length + 1 := by
          simp
        have takesFirst :
            takenUnits numCUs coreId (unit :: rest) assignedCoreUnits =
              coreId :: takenUnits numCUs (coreId + 1) rest
                (assignedCoreUnits ++ [coreId]) := by
          have oneLess : numCUs - assignedCoreUnits.length =
              numCUs - (assignedCoreUnits.length + 1) + 1 := by
            omega
          simp [takenUnits, free, oneLess]
        by_cases full : (assignedCoreUnits ++ [coreId]).length = numCUs
        · have onlyFirst :
              takenUnits numCUs (coreId + 1) rest
                (assignedCoreUnits ++ [coreId]) = [] := by
            rw [takenUnits, full, Nat.sub_self, take_zero]
          refine ⟨(jobId : Int) :: rest, ?_, ?_⟩
          · rw [takesFirst, onlyFirst]
            simp only [assignFreeUnits, free, missing, full, if_true]
          · intro place
            cases place with
            | zero => simp [takesFirst]
            | succ place => simp [takesFirst, onlyFirst]
        · obtain ⟨after, scan, units⟩ :=
            @hypothesis (coreId + 1) (assignedCoreUnits ++ [coreId])
              (by omega)
          refine ⟨(jobId : Int) :: after, ?_, ?_⟩
          · rw [takesFirst]
            simp only [assignFreeUnits, free, missing, full, if_true, if_false,
              scan, append_assoc, singleton_append]
          · intro place
            cases place with
            | zero => simp [takesFirst]
            | succ place =>
                have number : coreId + 1 + place = coreId + (place + 1) := by
                  omega
                simp [takesFirst, units, number]
      · have skipsFirst :
            takenUnits numCUs coreId (unit :: rest) assignedCoreUnits =
              takenUnits numCUs (coreId + 1) rest assignedCoreUnits := by
          simp [takenUnits, free]
        obtain ⟨after, scan, units⟩ :=
          @hypothesis (coreId + 1) assignedCoreUnits missing
        refine ⟨unit :: after, ?_, ?_⟩
        · simp only [assignFreeUnits, free, missing.ne, if_false, scan,
            skipsFirst]
        · intro place
          cases place with
          | zero =>
              have notTaken :
                  coreId ∉
                    takenUnits numCUs (coreId + 1) rest assignedCoreUnits := by
                intro taken
                exact absurd (le_of_mem_takenUnits taken) (by omega)
              simp [skipsFirst, notTaken]
          | succ place =>
              have number : coreId + 1 + place = coreId + (place + 1) := by
                omega
              simp [skipsFirst, units, number]

namespace BindToResource

variable
  {binder : BindToResource}
  {jobId : JobId}
  {numCUs : Nat}

theorem ext_holder
    {first second : BindToResource}
    (same : ∀ unit, first.holder unit = second.holder unit) :
    first = second := by
  cases first
  cases second
  exact congrArg BindToResource.mk (ext_getElem? same)

theorem releaseMeets (binder : BindToResource) (jobId : JobId) :
    binder.ReleaseMeets jobId := by
  intro unit
  simp only [releaseComputingUnits, holder, List.getElem?_map]
  obtain outside | ⟨held, inside⟩ :=
    Option.eq_none_or_eq_some binder.bindedComputingUnits[unit]?
  · simp [outside]
  · by_cases ofJob : held = jobId
    · simp [inside, ofJob]
    · simp [inside, ofJob]

theorem releaseComputingUnits_eq_iff :
    binder.releaseComputingUnits jobId = binder ↔
      binder.HoldsNothing jobId := by
  constructor
  · intro unchanged unit held
    have released := binder.releaseMeets jobId unit
    rw [if_pos held, unchanged, held] at released
    exact absurd released (by simp)
  · intro holdsNothing
    apply ext_holder
    intro unit
    rw [binder.releaseMeets jobId unit, if_neg (holdsNothing unit)]

/-- The units that a bind takes -/
def taken (binder : BindToResource) (numCUs : Nat) : List Nat :=
  takenUnits numCUs 0 binder.bindedComputingUnits []

theorem free_of_mem_taken
    {unit : Nat}
    (taken : unit ∈ binder.taken numCUs) :
    binder.holder unit = some (-1) := by
  obtain ⟨-, inside, isFree⟩ :=
    List.mem_idxsOf_iff_getElem_sub_pos.mp (List.mem_of_mem_take taken)
  exact List.getElem?_eq_some_iff.mpr ⟨inside, by simpa using isFree⟩

variable (binder)

theorem taken_length (numCUs : Nat) :
    (binder.taken numCUs).length = min numCUs binder.numFree := by
  simp [taken, takenUnits, numFree]

theorem scan_spec (jobId : JobId) (some : 0 < numCUs) :
    ∃ after : BindToResource,
      assignFreeUnits jobId numCUs 0 binder.bindedComputingUnits [] =
          (after.bindedComputingUnits, Option.some (binder.taken numCUs)) ∧
        ∀ unit,
          after.holder unit =
            if unit ∈ binder.taken numCUs then Option.some (jobId : Int)
            else binder.holder unit := by
  obtain ⟨after, scan, units⟩ :=
    @assignFreeUnits_spec jobId numCUs 0 binder.bindedComputingUnits [] some
  refine ⟨⟨after⟩, scan, ?_⟩
  intro unit
  rw [holder, units, Nat.zero_add]
  by_cases isTaken : unit ∈ binder.taken numCUs
  · have free : binder.bindedComputingUnits[unit]? = Option.some (-1) :=
      free_of_mem_taken isTaken
    rw [if_pos isTaken, free, Option.map_some]
    exact congrArg Option.some (if_pos isTaken)
  · rw [if_neg isTaken, holder]
    have unchanged : ∀ held : Int,
        (if unit ∈ takenUnits numCUs 0 binder.bindedComputingUnits [] then
          (jobId : Int) else held) = held :=
      fun held => if_neg isTaken
    simp only [unchanged, Option.map_id']

variable {binder}

/-- With enough free units the job gets the first of them. -/
theorem bind_served
    (some : 0 < numCUs)
    (enough : numCUs ≤ binder.numFree) :
    ∃ after units,
      binder.bindComputingUnits jobId numCUs =
          .returned after (.bound (units.map Int.ofNat)) ∧
        Granted binder jobId numCUs units after := by
  obtain ⟨after, scan, holders⟩ := binder.scan_spec jobId some
  have asked : (binder.taken numCUs).length = numCUs := by
    rw [taken_length, min_eq_left enough]
  refine ⟨after, binder.taken numCUs, ?_, ?_⟩
  · rw [bindComputingUnits, scan]
    simp only [asked, if_true]
  · exact {
      different := nodup_idxsOf.sublist (take_sublist _ _)
      enough := asked
      free := fun unit isTaken => free_of_mem_taken isTaken
      holders := holders }

/-- With too few free units the job loses what it has. -/
theorem bind_refused (tooFew : binder.numFree < numCUs) :
    binder.bindComputingUnits jobId numCUs =
      .returned (binder.releaseComputingUnits jobId)
        .unsufficientAvailableComputingUnits := by
  obtain ⟨after, scan, holders⟩ :=
    binder.scan_spec jobId (Nat.zero_lt_of_lt tooFew)
  have fewer : (binder.taken numCUs).length ≠ numCUs := by
    rw [taken_length, min_eq_right tooFew.le]
    exact tooFew.ne
  have released :
      after.releaseComputingUnits jobId =
        binder.releaseComputingUnits jobId := by
    apply ext_holder
    intro unit
    rw [releaseMeets, releaseMeets, holders]
    by_cases isTaken : unit ∈ binder.taken numCUs
    · rw [if_pos isTaken, if_pos rfl, free_of_mem_taken isTaken]
      simp
    · rw [if_neg isTaken]
  rw [bindComputingUnits, scan]
  simp only [fewer, if_false, released]

theorem bind_zero :
    binder.bindComputingUnits jobId 0 =
      if binder.holder 0 = some (-1) then
        .raised ⟨binder.bindedComputingUnits.set 0 jobId⟩ .indexOutOfBounds
      else .returned binder (.bound []) := by
  rcases binder with ⟨units⟩
  cases units with
  | nil => simp [bindComputingUnits, assignFreeUnits, holder]
  | cons unit rest =>
      by_cases free : unit = -1
      · simp [bindComputingUnits, assignFreeUnits, holder, free]
      · simp [bindComputingUnits, assignFreeUnits, holder, free]

variable (binder)

/-- A bind does what is promised unless it is one of two kinds. -/
theorem bindMeets_iff (jobId : JobId) (numCUs : Nat) :
    binder.BindMeets jobId numCUs ↔
      binder.FitsScan numCUs ∧ binder.KeepsRefused jobId numCUs := by
  constructor
  · intro meets
    constructor
    · rintro rfl free
      obtain ⟨after, units, served, -⟩ := meets.served (Nat.zero_le _)
      rw [bind_zero, if_pos free] at served
      exact absurd served (by simp)
    · intro tooFew
      have refused := meets.refused tooFew
      rw [bind_refused tooFew] at refused
      injection refused with unchanged
      exact releaseComputingUnits_eq_iff.mp unchanged
  · rintro ⟨fitsScan, keepsRefused⟩
    constructor
    · intro enough
      obtain rfl | some := Nat.eq_zero_or_pos numCUs
      · refine ⟨binder, [], ?_, ?_⟩
        · rw [bind_zero, if_neg (fitsScan rfl)]
          rfl
        · exact {
            different := nodup_nil
            enough := rfl
            free := by simp
            holders := by simp }
      · exact bind_served some enough
    · intro tooFew
      rw [bind_refused tooFew,
        releaseComputingUnits_eq_iff.mpr (keepsRefused tooFew)]

theorem Granted.holdsNothing
    {before after : BindToResource}
    {units : List Nat}
    (granted : Granted before jobId numCUs units after)
    (holdsNothing : before.HoldsNothing jobId)
    (unit : Nat) :
    after.holder unit = some (jobId : Int) ↔ unit ∈ units := by
  rw [granted.holders]
  by_cases given : unit ∈ units
  · simp [given]
  · simp [given, holdsNothing unit]

theorem Granted.others
    {before after : BindToResource}
    {units : List Nat}
    {other : JobId}
    (granted : Granted before jobId numCUs units after)
    (different : other ≠ jobId)
    (unit : Nat) :
    after.holder unit = some (other : Int) ↔
      before.holder unit = some (other : Int) := by
  rw [granted.holders]
  by_cases given : unit ∈ units
  · have notOther : (jobId : Int) ≠ other := by
      exact_mod_cast different.symm
    simp [given, granted.free unit given, notOther]
  · simp [given]

end BindToResource

/-!
## Runs
-/

/-- A binder together with the units that its live jobs have been given -/
structure UnitHistory where
  binder : BindToResource
  granted : JobId → List Nat

inductive UnitAction where
  | bind (jobId : JobId) (numCUs : Nat)
  | release (jobId : JobId)

namespace UnitHistory

variable
  (history : UnitHistory)
  (jobId : JobId)

def bind (numCUs : Nat) : UnitHistory :=
  match history.binder.bindComputingUnits jobId numCUs with
  | .returned binder (.bound assignedCoreUnits) =>
      { binder
        granted :=
          update history.granted jobId
            (assignedCoreUnits.map Int.toNat) }
  | .returned binder .unsufficientAvailableComputingUnits =>
      { history with binder }
  | .raised binder _ => { history with binder }

def release : UnitHistory where
  binder := history.binder.releaseComputingUnits jobId
  granted := update history.granted jobId []

/-- The table says who has been given what, and every unit has one holder. -/
structure Exclusive : Prop where
  held :
    ∀ (jobId : JobId) (unit : Nat),
      history.binder.holder unit = some (jobId : Int) ↔
        unit ∈ history.granted jobId
  different : ∀ jobId, (history.granted jobId).Nodup

variable
  {history}
  {jobId}

theorem Exclusive.holdsNothing
    (exclusive : history.Exclusive)
    (notLive : history.granted jobId = []) :
    history.binder.HoldsNothing jobId := by
  intro unit held
  have given := (exclusive.held jobId unit).mp held
  rw [notLive] at given
  exact absurd given not_mem_nil

theorem Exclusive.new (numThreads : Nat) :
    Exclusive ⟨.new numThreads, fun _ => []⟩ where
  held := by
    intro jobId unit
    simp [BindToResource.new, BindToResource.holder, List.getElem?_replicate]
  different := fun _ => nodup_nil

theorem Exclusive.bind
    {history : UnitHistory}
    (exclusive : history.Exclusive)
    {jobId : JobId}
    {numCUs : Nat}
    (notLive : history.granted jobId = [])
    (fitsScan : history.binder.FitsScan numCUs) :
    (history.bind jobId numCUs).Exclusive := by
  have holdsNothing := exclusive.holdsNothing notLive
  have meets := (BindToResource.bindMeets_iff history.binder jobId numCUs).mpr
    ⟨fitsScan, fun _ => holdsNothing⟩
  by_cases enough : numCUs ≤ history.binder.numFree
  · obtain ⟨after, units, served, granted⟩ := meets.served enough
    have numbers : (units.map Int.ofNat).map Int.toNat = units := by
      simp [map_map, comp_def]
    have bound :
        history.bind jobId numCUs =
          ⟨after, update history.granted jobId units⟩ := by
      simp only [UnitHistory.bind, served, numbers]
    rw [bound]
    constructor
    · intro other unit
      change after.holder unit = some (other : Int) ↔
        unit ∈ update history.granted jobId units other
      by_cases same : other = jobId
      · subst same
        rw [update_self]
        exact granted.holdsNothing holdsNothing unit
      · rw [update_of_ne same]
        exact (granted.others same unit).trans (exclusive.held other unit)
    · intro other
      change (update history.granted jobId units other).Nodup
      by_cases same : other = jobId
      · subst same
        rw [update_self]
        exact granted.different
      · rw [update_of_ne same]
        exact exclusive.different other
  · simp only [UnitHistory.bind, meets.refused (Nat.lt_of_not_le enough)]
    exact exclusive

theorem Exclusive.release
    {history : UnitHistory}
    (exclusive : history.Exclusive)
    (jobId : JobId) :
    (history.release jobId).Exclusive where
  held := by
    intro other unit
    simp only [UnitHistory.release]
    rw [history.binder.releaseMeets jobId unit]
    by_cases same : other = jobId
    · subst same
      by_cases held : history.binder.holder unit = some (other : Int)
      · simp [held]
      · simp [held]
    · rw [update_of_ne same, ← exclusive.held other unit]
      have notOther : (jobId : Int) ≠ other := by
        exact_mod_cast Ne.symm same
      by_cases held : history.binder.holder unit = some (jobId : Int)
      · simp [held, notOther]
      · simp [held]
  different := by
    intro other
    simp only [UnitHistory.release]
    by_cases same : other = jobId
    · subst same
      simp
    · rw [update_of_ne same]
      exact exclusive.different other

end UnitHistory

/-- Jobs have distinct identifiers: one that holds units does not bind again. -/
def unitSystem (numThreads : Nat) : TransitionSystem UnitHistory UnitAction where
  start := ⟨.new numThreads, fun _ => []⟩
  Enabled history action :=
    match action with
    | .bind jobId _ => history.granted jobId = []
    | .release _ => True
  next history action :=
    match action with
    | .bind jobId numCUs => history.bind jobId numCUs
    | .release jobId => history.release jobId

/-- The scan of every bind fits the units that the bind asks for. -/
def everyScanFits (history : UnitHistory) : UnitAction → Prop
  | .bind _ numCUs => history.binder.FitsScan numCUs
  | .release _ => True

/--
While no bind for nothing meets a free first unit, no unit has two holders, a
bind is served or refused as promised, and a release is exact.
-/
theorem unitsExclusive_of_run
    {numThreads : Nat}
    {actions : List UnitAction}
    {history : UnitHistory}
    (run : Run (unitSystem numThreads) everyScanFits actions history) :
    history.Exclusive ∧
      (∀ jobId numCUs, history.granted jobId = [] →
        (history.binder.BindMeets jobId numCUs ↔
          history.binder.FitsScan numCUs)) ∧
      ∀ jobId, history.binder.ReleaseMeets jobId := by
  have exclusive : history.Exclusive := by
    apply run.invariant (.new numThreads)
    intro state action stateExclusive enabled fits
    cases action with
    | bind jobId numCUs => exact stateExclusive.bind enabled fits
    | release jobId => exact stateExclusive.release jobId
  refine ⟨exclusive, ?_, history.binder.releaseMeets⟩
  intro jobId numCUs notLive
  rw [BindToResource.bindMeets_iff]
  exact and_iff_left fun _ => exclusive.holdsNothing notLive

/-- The first job gets two of three units, which leaves one for the second. -/
theorem unitsExclusive_twoJobs :
    let history := UnitHistory.bind ⟨.new 3, fun _ => []⟩ 1 2
    history.granted 1 = [0, 1] ∧ history.Exclusive ∧
      history.binder.BindMeets 2 1 := by
  have run :
      Run (unitSystem 3) everyScanFits [.bind 1 2]
        (UnitHistory.bind ⟨.new 3, fun _ => []⟩ 1 2) :=
    Run.start.snoc rfl (by simp [everyScanFits, BindToResource.FitsScan])
  obtain ⟨exclusive, meets, -⟩ := unitsExclusive_of_run run
  exact ⟨by decide, exclusive,
    (meets 2 1 (by decide)).mpr (by simp [BindToResource.FitsScan])⟩

/-- A job that needs no unit takes the first one and fails. -/
theorem not_bindMeets_nothing :
    (BindToResource.new 1).bindComputingUnits 1 0 =
        .raised ⟨[1]⟩ .indexOutOfBounds ∧
      ¬ (BindToResource.new 1).BindMeets 1 0 := by
  refine ⟨by decide, ?_⟩
  intro meets
  have fits := ((BindToResource.bindMeets_iff _ _ _).mp meets).1
  exact fits rfl (by decide)

end DistributedRdf.Nio
