import DistributedRdf.AllocatableActions

namespace DistributedRdf.Scheduling

open Java List

/-!
# Sets of actions

The actions of an `ActionSet` are filed under the core of their first
implementation.
-/

abbrev CoreId := Nat

/-- The first of the implementations of an action. -/
inductive FirstImplementation where
  /-- The action has no implementations. -/
  | missing
  /-- The core of the implementation is `null`. -/
  | ofNoCore
  | ofCore (coreId : CoreId)
  deriving DecidableEq

structure ActionSet where
  noCore : List ActionId
  coreIndexed : List (List ActionId)
  deriving DecidableEq

namespace ActionSet

/-- `new ActionSet()` -/
def new (coreCount : Nat) : ActionSet where
  noCore := []
  coreIndexed := replicate coreCount []

def updateCoreCount (set : ActionSet) (newCoreCount : Nat) : ActionSet :=
  { set with
    coreIndexed :=
      set.coreIndexed ++
        replicate (newCoreCount - set.coreIndexed.length) [] }

/-- The registered cores are only asked for when the core is out of bounds. -/
def addAction
    (set : ActionSet)
    (aa : ActionId)
    (implementation : FirstImplementation)
    (coreCount : Nat) : Outcome ActionSet Unit :=
  match implementation with
  | .missing => .returned { set with noCore := set.noCore ++ [aa] } ()
  | .ofNoCore =>
      -- `int core = impls[0].getCoreId()`
      .raised set .nullPointer
  | .ofCore core =>
      let grown :=
        if core < set.coreIndexed.length then set
        else set.updateCoreCount coreCount
      if core < grown.coreIndexed.length then
        .returned
          { grown with
            coreIndexed := grown.coreIndexed.modify core (· ++ [aa]) } ()
      else
        .raised grown .indexOutOfBounds

/-- The actions of the executable cores, one core after the other -/
def removeCores :
    List CoreId → List (List ActionId) →
      List ActionId × List (List ActionId)
  | [], coreIndexed => ([], coreIndexed)
  | core :: rest, coreIndexed =>
      let later := removeCores rest (coreIndexed.set core [])
      ((coreIndexed[core]?.getD []) ++ later.1, later.2)

/-- Returns the actions that are removed and the set without them. -/
def removeAllCompatibleActions
    (set : ActionSet)
    (isCompatible : ActionId → Bool)
    (executableCores : List CoreId) : List ActionId × ActionSet :=
  let removed := removeCores executableCores set.coreIndexed
  (set.noCore.filter isCompatible ++ removed.1,
    { noCore := set.noCore.filter (! isCompatible ·)
      coreIndexed := removed.2 })

def removeAllActions (set : ActionSet) : ActionSet where
  noCore := []
  coreIndexed := set.coreIndexed.map fun _ => []

def getAllActions (set : ActionSet) : List ActionId :=
  set.noCore ++ set.coreIndexed.flatten

/-!
## What the operations do to the actions of a set
-/

variable
  {core : CoreId}
  {lists : List (List ActionId)}

theorem flatten_modify_perm
    (inside : core < lists.length)
    (aa : ActionId) :
    (lists.modify core (· ++ [aa])).flatten.Perm (aa :: lists.flatten) := by
  induction lists generalizing core with
  | nil => exact absurd inside (Nat.not_lt_zero core)
  | cons first rest hypothesis =>
      cases core with
      | zero =>
          rw [modify_zero_cons, flatten_cons, flatten_cons,
            append_assoc, singleton_append]
          exact perm_middle
      | succ core =>
          have later := hypothesis (Nat.lt_of_succ_lt_succ inside)
          rw [modify_succ_cons, flatten_cons, flatten_cons]
          exact (later.append_left first).trans perm_middle

variable (lists)

theorem flatten_set_perm
    (core : CoreId) :
    (lists[core]?.getD [] ++ (lists.set core []).flatten).Perm
      lists.flatten := by
  induction lists generalizing core with
  | nil => simp
  | cons first rest hypothesis =>
      cases core with
      | zero => simp
      | succ core =>
          have later := hypothesis core
          rw [set_cons_succ, flatten_cons, flatten_cons,
            getElem?_cons_succ, ← append_assoc]
          calc
            (rest[core]?.getD [] ++ first ++ (rest.set core []).flatten).Perm
                (first ++ rest[core]?.getD [] ++ (rest.set core []).flatten) :=
              perm_append_comm.append_right _
            List.Perm _ (first ++ rest.flatten) := by
              rw [append_assoc]
              exact later.append_left first

theorem removeCores_perm
    (executableCores : List CoreId)
    (coreIndexed : List (List ActionId)) :
    ((removeCores executableCores coreIndexed).1 ++
      (removeCores executableCores coreIndexed).2.flatten).Perm
        coreIndexed.flatten := by
  induction executableCores generalizing coreIndexed with
  | nil => exact .refl _
  | cons core rest hypothesis =>
      have later := hypothesis (coreIndexed.set core [])
      rw [removeCores, append_assoc]
      exact (later.append_left _).trans (flatten_set_perm coreIndexed core)

@[simp] theorem getAllActions_new (coreCount : Nat) :
    (new coreCount).getAllActions = [] := by
  simp [new, getAllActions]

@[simp] theorem getAllActions_updateCoreCount
    (set : ActionSet)
    (newCoreCount : Nat) :
    (set.updateCoreCount newCoreCount).getAllActions = set.getAllActions := by
  simp [updateCoreCount, getAllActions]

@[simp] theorem getAllActions_removeAllActions (set : ActionSet) :
    set.removeAllActions.getAllActions = [] := by
  simp [removeAllActions, getAllActions]

variable
  {implementation : FirstImplementation}
  {coreCount : Nat}

/-- What is added is in the set, next to what was there. -/
theorem addAction_perm
    {set after : ActionSet}
    {aa : ActionId}
    (returned :
      set.addAction aa implementation coreCount = .returned after ()) :
    after.getAllActions.Perm (aa :: set.getAllActions) := by
  cases implementation with
  | missing =>
      cases returned
      change ((set.noCore ++ [aa]) ++ _).Perm _
      rw [append_assoc, singleton_append]
      exact perm_middle
  | ofNoCore => exact absurd returned (by simp [addAction])
  | ofCore core =>
      have fileUnder
          (grown : ActionSet)
          (inside : core < grown.coreIndexed.length) :
          ({ grown with
              coreIndexed := grown.coreIndexed.modify core (· ++ [aa])
            } : ActionSet).getAllActions.Perm (aa :: grown.getAllActions) :=
        ((flatten_modify_perm inside aa).append_left _).trans perm_middle
      simp only [addAction] at returned
      by_cases known : core < set.coreIndexed.length
      · simp only [known, if_true, Outcome.returned.injEq, and_true] at returned
        rw [← returned]
        exact fileUnder set known
      · simp only [known, if_false] at returned
        split at returned
        · rename_i inside
          simp only [Outcome.returned.injEq, and_true] at returned
          have filed := fileUnder _ inside
          rw [getAllActions_updateCoreCount] at filed
          rwa [← returned]
        · exact absurd returned (by simp)

variable {set : ActionSet}

/-- An action of a registered core can be added. -/
theorem addAction_returned
    (registered : core < coreCount)
    (aa : ActionId) :
    ∃ after, set.addAction aa (.ofCore core) coreCount = .returned after () := by
  simp only [addAction]
  by_cases known : core < set.coreIndexed.length
  · simp [known]
  · have inside : core < (set.updateCoreCount coreCount).coreIndexed.length := by
      rw [updateCoreCount, length_append, length_replicate]
      exact Nat.lt_of_lt_of_le registered (by omega)
    simp [known, inside]

/-- Adding an action brings in no other, also when it throws. -/
theorem mem_addAction
    {aa other : ActionId}
    (member :
      other ∈
        (set.addAction aa implementation coreCount).state.getAllActions) :
    other = aa ∨ other ∈ set.getAllActions := by
  cases outcome : set.addAction aa implementation coreCount with
  | returned after value =>
      rw [outcome] at member
      exact mem_cons.mp ((addAction_perm outcome).mem_iff.mp member)
  | raised after exception =>
      rw [outcome] at member
      right
      unfold addAction at outcome
      split at outcome
      · exact absurd outcome (by simp)
      · cases outcome
        exact member
      · rename_i core
        by_cases known : core < set.coreIndexed.length
        · simp only [known, if_true] at outcome
          exact absurd outcome (by simp)
        · simp only [known, if_false] at outcome
          split at outcome
          · exact absurd outcome (by simp)
          · cases outcome
            rwa [Outcome.state_raised, getAllActions_updateCoreCount] at member

theorem removeAllCompatibleActions_perm
    (set : ActionSet)
    (isCompatible : ActionId → Bool)
    (executableCores : List CoreId) :
    let removed := set.removeAllCompatibleActions isCompatible executableCores
    (removed.1 ++ removed.2.getAllActions).Perm set.getAllActions := by
  have compatible :
      (set.noCore.filter isCompatible ++
        set.noCore.filter (! isCompatible ·)).Perm set.noCore :=
    filter_append_perm isCompatible set.noCore
  have cores := removeCores_perm executableCores set.coreIndexed
  simp only [removeAllCompatibleActions, getAllActions]
  calc
    List.Perm _
        ((set.noCore.filter isCompatible ++
          set.noCore.filter (! isCompatible ·)) ++
        ((removeCores executableCores set.coreIndexed).1 ++
          (removeCores executableCores set.coreIndexed).2.flatten)) := by
      rw [append_assoc, append_assoc]
      refine List.Perm.append_left _ ?_
      rw [← append_assoc, ← append_assoc]
      exact perm_append_comm.append_right _
    List.Perm _ (set.noCore ++ set.coreIndexed.flatten) :=
      compatible.append cores

end ActionSet

end DistributedRdf.Scheduling
