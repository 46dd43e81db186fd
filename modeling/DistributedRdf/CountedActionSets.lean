import DistributedRdf.ActionSets
import DistributedRdf.TransitionSystem

namespace DistributedRdf.Scheduling

open Java Execution ActionSet Outcome List

/-!
# Action sets with their counters

The fields and methods of `ActionSet` that placement does not look at: the
number of actions of each core, the removal of single actions, and the queries.
-/

structure CountedActionSet extends ActionSet where
  counts : List Int
  deriving DecidableEq

/-- What a set of actions asks of a worker: `getExecutableCores()` and the
`isCompatible` of its elements. -/
structure CompatibleWorker where
  executableCores : List CoreId
  idealSimultaneousTasks : CoreId → Int
  executableCores_iff :
    ∀ coreId, coreId ∈ executableCores ↔ 0 < idealSimultaneousTasks coreId
  /-- The action starts this worker. -/
  isStartedBy : ActionId → Bool

/-- `isCompatible(Worker<T, I> r)` of an action, by the core that it is of -/
def CompatibleWorker.isCompatible
    (coreOf : ActionId → Option CoreId)
    (r : CompatibleWorker)
    (action : ActionId) : Bool :=
  match coreOf action with
  | some coreId => 0 < r.idealSimultaneousTasks coreId
  | none => r.isStartedBy action

namespace CountedActionSet

/-- `new ActionSet()` -/
def new (coreCount : Nat) : CountedActionSet where
  toActionSet := .new coreCount
  counts := replicate coreCount 0

def updateCoreCount
    (set : CountedActionSet)
    (newCoreCount : Nat) : CountedActionSet where
  toActionSet := set.toActionSet.updateCoreCount newCoreCount
  counts :=
    set.counts ++ replicate (newCoreCount - set.coreIndexed.length) 0

variable
  (set : CountedActionSet)
  (aa : ActionId)
  (implementation : FirstImplementation)
  (coreCount : Nat)

def addAction : Outcome CountedActionSet Unit :=
  match implementation with
  | .missing => .returned { set with noCore := set.noCore ++ [aa] } ()
  | .ofNoCore => .raised set .nullPointer
  | .ofCore core =>
      let grown :=
        if core < set.coreIndexed.length then set
        else set.updateCoreCount coreCount
      if core < grown.coreIndexed.length then
        .returned
          { grown with
            coreIndexed := grown.coreIndexed.modify core (· ++ [aa])
            counts := grown.counts.modify core (· + 1) } ()
      else
        .raised grown .indexOutOfBounds

/-- The loop over the executable cores -/
def removeCores :
    List CoreId → CountedActionSet → Outcome CountedActionSet (List ActionId)
  | [], set => .returned set []
  | core :: rest, set =>
      if core < set.coreIndexed.length then
        (removeCores rest
          { set with
            coreIndexed := set.coreIndexed.set core []
            counts := set.counts.set core 0 }).andThen fun emptied later =>
              .returned emptied (set.coreIndexed[core]?.getD [] ++ later)
      else
        .raised set .indexOutOfBounds

variable (isCompatible : ActionId → Bool)

def removeAllCompatibleActions
    (executableCores : List CoreId) :
    Outcome CountedActionSet (List ActionId) :=
  let runnable := set.noCore.filter isCompatible
  let remaining :=
    { set with noCore := set.noCore.filter (! isCompatible ·) }
  (removeCores executableCores remaining).andThen fun emptied removed =>
    .returned emptied (runnable ++ removed)

def removeAllActions
    (set : CountedActionSet) : CountedActionSet × List ActionId :=
  ({ toActionSet := set.toActionSet.removeAllActions
     counts := set.counts.map fun _ => 0 },
    set.noCore ++ set.coreIndexed.flatten)

def getActionCounts : List Int :=
  set.counts

/-- There is no list for a core that the set does not know. -/
def getActions
    (coreId : Option CoreId) : Option (List ActionId) :=
  match coreId with
  | none => some set.noCore
  | some coreId => set.coreIndexed[coreId]?

/-- `TaskScheduler.getBlockedActions()` -/
def getBlockedActions
    (blockedActions : CountedActionSet) : Option (List ActionId) :=
  blockedActions.getActions none

/-- The counter does not depend on whether the action is found. -/
def removeAction
    (action : ActionId)
    (coreId : Option CoreId) : Outcome CountedActionSet Unit :=
  match coreId with
  | none => .returned { set with noCore := set.noCore.erase action } ()
  | some coreId =>
      if coreId < set.coreIndexed.length then
        .returned
          { set with
            coreIndexed := set.coreIndexed.modify coreId (·.erase action)
            counts := set.counts.modify coreId (· - 1) } ()
      else
        .raised set .indexOutOfBounds

/-! ## Without the counters -/

theorem toActionSet_addAction :
    (set.addAction aa implementation coreCount).onState toActionSet =
      set.toActionSet.addAction aa implementation coreCount := by
  cases implementation with
  | missing => rfl
  | ofNoCore => rfl
  | ofCore core =>
      by_cases known : core < set.coreIndexed.length
      · simp [addAction, ActionSet.addAction, known, onState]
      · simp only [addAction, ActionSet.addAction, known, if_false]
        split
        · rename_i inside
          simp only [updateCoreCount] at inside
          simp [inside, onState, updateCoreCount]
        · rename_i outside
          simp only [updateCoreCount] at outside
          simp [outside, onState, updateCoreCount]

variable
  {executableCores : List CoreId}
  {removed : List ActionId}

theorem toActionSet_removeCores
    {set after : CountedActionSet}
    (returned : removeCores executableCores set = .returned after removed) :
    (removed, after.coreIndexed) =
        ActionSet.removeCores executableCores set.coreIndexed ∧
      after.noCore = set.noCore := by
  induction executableCores generalizing set removed with
  | nil =>
      cases returned
      exact ⟨rfl, rfl⟩
  | cons core rest hypothesis =>
      rw [removeCores] at returned
      split at returned
      · obtain ⟨emptied, later, taken, last⟩ :=
          andThen_eq_returned.mp returned
        cases last
        obtain ⟨same, noCore⟩ := hypothesis taken
        exact ⟨by rw [ActionSet.removeCores, ← same], noCore⟩
      · exact absurd returned (by simp)

/-- The loop over the cores gets to its end if it finds all of their lists. -/
theorem removeCores_inside
    {set after : CountedActionSet}
    (returned : removeCores executableCores set = .returned after removed) :
    ∀ coreId ∈ executableCores, coreId < set.coreIndexed.length := by
  induction executableCores generalizing set removed with
  | nil =>
      intro coreId member
      exact absurd member not_mem_nil
  | cons core rest hypothesis =>
      rw [removeCores] at returned
      split at returned
      · rename_i known
        obtain ⟨emptied, later, taken, last⟩ :=
          andThen_eq_returned.mp returned
        cases last
        have inRest := hypothesis taken
        rw [length_set] at inRest
        exact forall_mem_cons.mpr ⟨known, inRest⟩
      · exact absurd returned (by simp)

variable {isCompatible}

theorem toActionSet_removeAllCompatibleActions
    {set after : CountedActionSet}
    (returned :
      set.removeAllCompatibleActions isCompatible executableCores =
        .returned after removed) :
    set.toActionSet.removeAllCompatibleActions isCompatible executableCores =
      (removed, after.toActionSet) := by
  obtain ⟨⟨⟨noCore, coreIndexed⟩, counts⟩, taken, inCores, last⟩ :=
    andThen_eq_returned.mp returned
  cases last
  obtain ⟨same, rfl⟩ := toActionSet_removeCores inCores
  simp only [ActionSet.removeAllCompatibleActions, ← same]

/-! ## Where the actions are filed -/

/-- Each action is in the list of its core, and the counters are the lengths of
the lists. -/
structure Filed
    (coreOf : ActionId → Option CoreId)
    (set : CountedActionSet) : Prop where
  ofNoCore : ∀ aa ∈ set.noCore, coreOf aa = none
  ofCore :
    ∀ coreId, ∀ aa ∈ set.coreIndexed[coreId]?.getD [],
      coreOf aa = some coreId
  counts : set.counts = set.coreIndexed.map fun actions => (actions.length : Int)

/-- Lists and counters of one core are changed together. -/
theorem map_length_modify
    {lists : List (List ActionId)}
    {coreId : CoreId}
    {file : List ActionId → List ActionId}
    {change : Int → Int}
    (together :
      ∀ actions, lists[coreId]? = some actions →
        ((file actions).length : Int) = change actions.length) :
    (lists.modify coreId file).map (fun actions => (actions.length : Int)) =
      (lists.map fun actions => (actions.length : Int)).modify coreId change := by
  apply ext_getElem?
  intro other
  rw [getElem?_map, getElem?_modify, getElem?_modify,
    getElem?_map]
  cases entry : lists[other]? with
  | none => rfl
  | some actions =>
      by_cases same : coreId = other
      · subst same
        simp [together actions entry]
      · simp [same]

namespace Filed

variable
  {coreOf : ActionId → Option CoreId}
  {set : CountedActionSet}

protected theorem new (coreCount : Nat) : Filed coreOf (new coreCount) where
  ofNoCore := by
    intro aa member
    exact absurd member not_mem_nil
  ofCore := by
    intro coreId aa member
    simp only [CountedActionSet.new, ActionSet.new,
      getElem?_replicate] at member
    split at member
    · exact absurd member not_mem_nil
    · exact absurd member not_mem_nil
  counts := by
    simp [CountedActionSet.new, ActionSet.new]

protected theorem updateCoreCount
    (filed : Filed coreOf set)
    (newCoreCount : Nat) :
    Filed coreOf (set.updateCoreCount newCoreCount) where
  ofNoCore := filed.ofNoCore
  ofCore := by
    intro coreId aa member
    simp only [CountedActionSet.updateCoreCount, ActionSet.updateCoreCount,
      getElem?_append, getElem?_replicate] at member
    split at member
    · exact filed.ofCore coreId aa member
    · split at member
      · exact absurd member not_mem_nil
      · exact absurd member not_mem_nil
  counts := by
    simp [CountedActionSet.updateCoreCount, ActionSet.updateCoreCount,
      filed.counts]

variable {aa : ActionId}

theorem addMissing
    (filed : Filed coreOf set)
    (ofNoCore : coreOf aa = none) :
    Filed coreOf { set with noCore := set.noCore ++ [aa] } where
  ofNoCore := by
    intro other member
    rcases mem_append.mp member with earlier | last
    · exact filed.ofNoCore other earlier
    · rw [mem_singleton.mp last, ofNoCore]
  ofCore := filed.ofCore
  counts := filed.counts

variable
  {coreId : CoreId}
  (filed : Filed coreOf set)

include filed

/-- Changing the list of one core, to which no other actions come -/
theorem modify
    {file : List ActionId → List ActionId}
    {change : Int → Int}
    (ofCore :
      ∀ actions, set.coreIndexed[coreId]? = some actions →
        ∀ aa ∈ file actions, coreOf aa = some coreId)
    (together :
      ∀ actions, set.coreIndexed[coreId]? = some actions →
        ((file actions).length : Int) = change actions.length) :
    Filed coreOf
      { set with
        coreIndexed := set.coreIndexed.modify coreId file
        counts := set.counts.modify coreId change } where
  ofNoCore := filed.ofNoCore
  ofCore := by
    intro other aa member
    simp only [getElem?_modify] at member
    cases entry : set.coreIndexed[other]? with
    | none =>
        rw [entry] at member
        exact absurd member not_mem_nil
    | some actions =>
        rw [entry] at member
        by_cases same : coreId = other
        · subst same
          refine ofCore actions entry aa ?_
          simpa using member
        · refine filed.ofCore other aa ?_
          simpa [same, entry] using member
  counts := by
    rw [filed.counts, map_length_modify together]

theorem inList
    (member : aa ∈ set.getAllActions)
    (ofCore : coreOf aa = some coreId) :
    aa ∈ set.coreIndexed[coreId]?.getD [] := by
  rcases mem_append.mp member with inNoCore | inCores
  · rw [filed.ofNoCore aa inNoCore] at ofCore
    cases ofCore
  · obtain ⟨actions, listed, inActions⟩ := mem_flatten.mp inCores
    obtain ⟨other, entry⟩ := mem_iff_getElem?.mp listed
    have inOther : aa ∈ set.coreIndexed[other]?.getD [] := by
      rw [entry]
      exact inActions
    have same := filed.ofCore other aa inOther
    rw [ofCore] at same
    cases same
    exact inOther

/-- Counting over the whole set is looking up the counter. -/
theorem count
    (coreId : CoreId) :
    (set.getActionCounts[coreId]?.getD 0 : Int) =
      set.getAllActions.countP (coreOf · = some coreId) := by
  have inNoCore : set.noCore.countP (coreOf · = some coreId) = 0 := by
    rw [countP_eq_zero]
    intro aa member
    simp [filed.ofNoCore aa member]
  have split := (flatten_set_perm set.coreIndexed coreId).countP_eq
    (coreOf · = some coreId)
  have inOthers :
      (set.coreIndexed.set coreId []).flatten.countP
        (coreOf · = some coreId) = 0 := by
    rw [countP_eq_zero]
    intro aa member
    obtain ⟨actions, listed, inActions⟩ := mem_flatten.mp member
    obtain ⟨other, entry⟩ := mem_iff_getElem?.mp listed
    rw [getElem?_set] at entry
    split at entry
    · split at entry
      · cases entry
        exact absurd inActions not_mem_nil
      · cases entry
    · rename_i different
      have ofOther := filed.ofCore other aa (by rw [entry]; exact inActions)
      rw [ofOther]
      simpa using Ne.symm different
  have inCore :
      (set.coreIndexed[coreId]?.getD []).countP (coreOf · = some coreId) =
        (set.coreIndexed[coreId]?.getD []).length := by
    rw [countP_eq_length]
    intro aa member
    simp [filed.ofCore coreId aa member]
  rw [countP_append, inOthers, inCore, Nat.add_zero] at split
  rw [getAllActions, countP_append, inNoCore, Nat.zero_add,
    ← split, getActionCounts, filed.counts, getElem?_map]
  cases set.coreIndexed[coreId]? with
  | none => rfl
  | some actions => rfl

theorem addAction
    {coreCount : Nat}
    (registered : ∀ coreId, coreOf aa = some coreId → coreId < coreCount) :
    ∃ after,
      set.addAction aa ((coreOf aa).elim .missing .ofCore) coreCount =
          .returned after () ∧
        Filed coreOf after := by
  cases core : coreOf aa with
  | none => exact ⟨_, rfl, filed.addMissing core⟩
  | some coreId =>
      have addedTo
          {grown : CountedActionSet}
          (grownFiled : Filed coreOf grown) :
          Filed coreOf
            { grown with
              coreIndexed := grown.coreIndexed.modify coreId (· ++ [aa])
              counts := grown.counts.modify coreId (· + 1) } := by
        apply grownFiled.modify
        · intro actions entry other member
          rcases mem_append.mp member with earlier | last
          · exact grownFiled.ofCore coreId other (by rw [entry]; exact earlier)
          · rw [mem_singleton.mp last, core]
        · intro actions entry
          simp
      by_cases known : coreId < set.coreIndexed.length
      · refine ⟨_, ?_, addedTo filed⟩
        simp [CountedActionSet.addAction, known]
      · refine ⟨_, ?_, addedTo (filed.updateCoreCount coreCount)⟩
        have inside :
            coreId < (set.updateCoreCount coreCount).coreIndexed.length := by
          have isRegistered := registered coreId core
          simp only [CountedActionSet.updateCoreCount,
            ActionSet.updateCoreCount, length_append,
            length_replicate]
          exact Nat.lt_of_lt_of_le isRegistered (by omega)
        simp [CountedActionSet.addAction, known, inside]


omit filed in
/-- One action less in the list of a core -/
theorem flatten_modify_erase
    {lists : List (List ActionId)}
    {action : ActionId}
    (listed : action ∈ lists[coreId]?.getD []) :
    (action :: (lists.modify coreId (·.erase action)).flatten).Perm
      lists.flatten := by
  have before := flatten_set_perm lists coreId
  have after := flatten_set_perm
    (lists.modify coreId (·.erase action)) coreId
  have others :
      (lists.modify coreId (·.erase action)).set coreId [] =
        lists.set coreId [] := by
    apply ext_getElem?
    intro other
    rw [getElem?_set, getElem?_set, length_modify,
      getElem?_modify]
    by_cases same : coreId = other
    · rw [if_pos same, if_pos same]
    · simp [same]
  rw [others, getElem?_modify] at after
  cases entry : lists[coreId]? with
  | none =>
      rw [entry] at listed
      exact absurd listed not_mem_nil
  | some actions =>
      rw [entry, Option.getD_some] at listed
      simp only [entry, Option.map_eq_map, Option.map_some, if_true,
        Option.getD_some] at before after
      calc
        List.Perm _
            (action :: (actions.erase action ++
              (lists.set coreId []).flatten)) :=
          after.symm.cons action
        List.Perm _ (actions ++ (lists.set coreId []).flatten) := by
          rw [← cons_append]
          exact (perm_cons_erase listed).symm.append_right _
        List.Perm _ lists.flatten :=
          before

theorem removeAction
    (action : ActionId)
    (inside :
      ∀ coreId, coreOf action = some coreId → action ∈ set.getAllActions) :
    ∃ after,
      set.removeAction action (coreOf action) = .returned after () ∧
        Filed coreOf after ∧
        after.getAllActions.Perm (set.getAllActions.erase action) := by
  cases core : coreOf action with
  | none =>
      refine ⟨_, rfl, ⟨?_, filed.ofCore, filed.counts⟩, ?_⟩
      · intro other member
        exact filed.ofNoCore other (mem_of_mem_erase member)
      · simp only [getAllActions]
        by_cases inNoCore : action ∈ set.noCore
        · rw [erase_append_left _ inNoCore]
        · have inNone : action ∉ set.coreIndexed.flatten := by
            intro member
            obtain ⟨actions, listed, inActions⟩ := mem_flatten.mp member
            obtain ⟨coreId, entry⟩ := mem_iff_getElem?.mp listed
            have ofCore := filed.ofCore coreId action
              (by rw [entry]; exact inActions)
            rw [core] at ofCore
            cases ofCore
          rw [erase_append_right _ inNoCore,
            erase_of_not_mem inNoCore, erase_of_not_mem inNone]
  | some coreId =>
      have held := inside coreId core
      have listed := filed.inList held core
      have known : coreId < set.coreIndexed.length := by
        rw [← getElem?_eq_none_iff.not.trans Nat.not_le]
        intro unknown
        rw [unknown] at listed
        exact absurd listed not_mem_nil
      refine ⟨_, if_pos known, filed.modify ?_ ?_, ?_⟩
      · intro actions entry other member
        exact filed.ofCore coreId other
          (by rw [entry]; exact mem_of_mem_erase member)
      · intro actions entry
        rw [entry, Option.getD_some] at listed
        have positive := length_pos_of_mem listed
        rw [length_erase_of_mem listed]
        omega
      · have notInNoCore : action ∉ set.noCore := by
          intro member
          rw [filed.ofNoCore action member] at core
          cases core
        simp only [getAllActions]
        rw [erase_append_right _ notInNoCore]
        refine List.Perm.append_left _ ?_
        exact (cons_perm_iff_perm_erase.mp
          (flatten_modify_erase listed)).2

/-- Emptying the list of a core -/
theorem emptied
    (coreId : CoreId) :
    Filed coreOf
      { set with
        coreIndexed := set.coreIndexed.set coreId []
        counts := set.counts.set coreId 0 } := by
  have asModified :
      Filed coreOf
        { set with
          coreIndexed := set.coreIndexed.modify coreId fun _ => []
          counts := set.counts.modify coreId fun _ => 0 } :=
    filed.modify (fun _ _ _ member => absurd member not_mem_nil)
      (fun _ _ => rfl)
  simpa [modify_eq_set] using asModified

/-- The executable cores are left without actions. -/
theorem removeCores
    {executableCores : List CoreId}
    (inside :
      ∀ coreId ∈ executableCores, coreId < set.coreIndexed.length) :
    ∃ after removed,
      removeCores executableCores set = .returned after removed ∧
        Filed coreOf after ∧
        (∀ coreId, after.coreIndexed[coreId]?.getD [] =
          if coreId ∈ executableCores then []
          else set.coreIndexed[coreId]?.getD []) ∧
        ∀ aa ∈ removed, ∃ coreId ∈ executableCores,
          coreOf aa = some coreId := by
  induction executableCores generalizing set with
  | nil =>
      refine ⟨set, [], rfl, filed, ?_, ?_⟩
      · intro coreId
        rw [if_neg not_mem_nil]
      · intro aa member
        exact absurd member not_mem_nil
  | cons core rest hypothesis =>
      have known := inside core mem_cons_self
      obtain ⟨after, later, returned, afterFiled, lists, ofCores⟩ :=
        hypothesis (filed.emptied core) (by
          intro coreId member
          rw [length_set]
          exact inside coreId (mem_cons_of_mem core member))
      refine ⟨after, set.coreIndexed[core]?.getD [] ++ later, ?_, afterFiled,
        ?_, ?_⟩
      · rw [CountedActionSet.removeCores, if_pos known, returned,
          andThen_returned]
      · intro coreId
        rw [lists coreId]
        by_cases inRest : coreId ∈ rest
        · simp [inRest]
        · by_cases same : core = coreId
          · simp [← same, known]
          · simp [inRest, same, Ne.symm same]
      · intro aa member
        rcases mem_append.mp member with first | inLater
        · exact ⟨core, mem_cons_self, filed.ofCore core aa first⟩
        · obtain ⟨coreId, inRest, ofCore⟩ := ofCores aa inLater
          exact ⟨coreId, mem_cons_of_mem core inRest, ofCore⟩

omit filed in
/-- A test that separates two lists finds them in their union. -/
theorem perm_filter_of_split
    {taken left all : List ActionId}
    {test : ActionId → Bool}
    (split : (taken ++ left).Perm all)
    (passed : ∀ aa ∈ taken, test aa = true)
    (failed : ∀ aa ∈ left, test aa = false) :
    taken.Perm (all.filter test) ∧ left.Perm (all.filter (! test ·)) := by
  have takenOnly : (taken ++ left).filter test = taken := by
    rw [filter_append, filter_eq_self.mpr passed,
      filter_eq_nil_iff.mpr (by simpa using failed), append_nil]
  have leftOnly : (taken ++ left).filter (! test ·) = left := by
    rw [filter_append, filter_eq_nil_iff.mpr (by simpa using passed),
      filter_eq_self.mpr (by simpa using failed), nil_append]
  have ofTest := split.filter test
  have ofRest := split.filter (! test ·)
  rw [takenOnly] at ofTest
  rw [leftOnly] at ofRest
  exact ⟨ofTest, ofRest⟩

/-- What is taken out is what is compatible, and nothing else. -/
theorem removeAllCompatibleActions
    (r : CompatibleWorker)
    (inside :
      ∀ coreId ∈ r.executableCores, coreId < set.coreIndexed.length) :
    ∃ after removed,
      set.removeAllCompatibleActions (r.isCompatible coreOf)
            r.executableCores = .returned after removed ∧
        Filed coreOf after ∧
        removed.Perm (set.getAllActions.filter (r.isCompatible coreOf)) ∧
        after.getAllActions.Perm
          (set.getAllActions.filter (! r.isCompatible coreOf ·)) := by
  have remaining :
      Filed coreOf
        { set with
          noCore := set.noCore.filter (! r.isCompatible coreOf ·) } :=
    { ofNoCore := fun aa member =>
        filed.ofNoCore aa (mem_of_mem_filter member)
      ofCore := filed.ofCore
      counts := filed.counts }
  obtain ⟨after, fromCores, returned, afterFiled, lists, ofCores⟩ :=
    remaining.removeCores inside
  have whole :
      set.removeAllCompatibleActions (r.isCompatible coreOf)
          r.executableCores =
        .returned after
          (set.noCore.filter (r.isCompatible coreOf) ++ fromCores) := by
    rw [CountedActionSet.removeAllCompatibleActions]
    simp only [returned, andThen_returned]
  have perm := removeAllCompatibleActions_perm set.toActionSet
    (r.isCompatible coreOf) r.executableCores
  rw [toActionSet_removeAllCompatibleActions whole] at perm
  have taken :
      ∀ aa ∈ set.noCore.filter (r.isCompatible coreOf) ++ fromCores,
        r.isCompatible coreOf aa = true := by
    intro aa member
    rcases mem_append.mp member with inNoCore | inCores
    · exact of_mem_filter inNoCore
    · obtain ⟨coreId, executable, ofCore⟩ := ofCores aa inCores
      simpa [CompatibleWorker.isCompatible, ofCore] using
        (r.executableCores_iff coreId).mp executable
  have left :
      ∀ aa ∈ after.getAllActions, r.isCompatible coreOf aa = false := by
    intro aa member
    rcases mem_append.mp member with inNoCore | inCores
    · rw [(toActionSet_removeCores returned).2] at inNoCore
      simpa using of_mem_filter inNoCore
    · obtain ⟨actions, listed, inActions⟩ := mem_flatten.mp inCores
      obtain ⟨coreId, entry⟩ := mem_iff_getElem?.mp listed
      have inCore : aa ∈ after.coreIndexed[coreId]?.getD [] := by
        rw [entry]
        exact inActions
      have ofCore := afterFiled.ofCore coreId aa inCore
      rw [lists coreId] at inCore
      have notExecutable : coreId ∉ r.executableCores := by
        intro executable
        rw [if_pos executable] at inCore
        exact absurd inCore not_mem_nil
      simpa [CompatibleWorker.isCompatible, ofCore] using
        (r.executableCores_iff coreId).not.mp notExecutable
  exact ⟨after, _, whole, afterFiled, perm_filter_of_split perm taken left⟩

protected theorem removeAllActions :
    Filed coreOf set.removeAllActions.1 where
  ofNoCore := by
    intro aa member
    exact absurd member not_mem_nil
  ofCore := by
    intro coreId aa member
    simp only [CountedActionSet.removeAllActions, ActionSet.removeAllActions,
      getElem?_map] at member
    cases entry : set.coreIndexed[coreId]? with
    | none | some _ =>
        rw [entry] at member
        exact absurd member not_mem_nil
  counts := by
    simp only [CountedActionSet.removeAllActions, ActionSet.removeAllActions,
      filed.counts, map_map]
    rfl

end Filed

end CountedActionSet

/-!
## Histories of a set of actions

`contents` is what the set is meant to hold, as a list up to permutation, and
`expected` what the last call is meant to return.  A call that throws returns
nothing.
-/

structure SetHistory where
  set : CountedActionSet
  /-- `CoreManager.getCoreCount()` -/
  coreCount : Nat
  contents : List ActionId
  returned : Option (List ActionId)
  expected : List ActionId

inductive SetOperation where
  /-- `CoreManager` registers cores. -/
  | registerCores (coreCount : Nat)
  | updateCoreCount (newCoreCount : Nat)
  | addAction (aa : ActionId) (implementation : FirstImplementation)
  | removeAction (action : ActionId)
  | removeAllCompatibleActions (r : CompatibleWorker)
  | removeAllActions
  | getBlockedActions

namespace SetHistory

def start (coreCount : Nat) : SetHistory where
  set := .new coreCount
  coreCount := coreCount
  contents := []
  returned := some []
  expected := []

/-- A call without a result -/
def called
    (history : SetHistory)
    (outcome : Outcome CountedActionSet Unit)
    (contents : List ActionId) : SetHistory :=
  { history with
    set := outcome.state
    contents := contents
    returned := outcome.value?.map fun _ => []
    expected := [] }

variable (coreOf : ActionId → Option CoreId) (history : SetHistory)

/-- The core of an action is registered, and is the core of its implementations,
of which it may have none. -/
def Enabled : SetOperation → Prop
  | .registerCores coreCount => history.coreCount ≤ coreCount
  | .addAction aa implementation =>
      (∀ coreId, coreOf aa = some coreId → coreId < history.coreCount) ∧
        (implementation = .missing ∨
          implementation = (coreOf aa).elim .ofNoCore .ofCore)
  | _ => True

def next : SetOperation → SetHistory
  | .registerCores coreCount => { history with coreCount := coreCount }
  | .updateCoreCount newCoreCount =>
      history.called (.returned (history.set.updateCoreCount newCoreCount) ())
        history.contents
  | .addAction aa implementation =>
      history.called
        (history.set.addAction aa implementation history.coreCount)
        (aa :: history.contents)
  | .removeAction action =>
      history.called (history.set.removeAction action (coreOf action))
        (history.contents.erase action)
  | .removeAllCompatibleActions r =>
      let outcome := history.set.removeAllCompatibleActions
        (r.isCompatible coreOf) r.executableCores
      { history with
        set := outcome.state
        contents := history.contents.filter (! r.isCompatible coreOf ·)
        returned := outcome.value?
        expected := history.contents.filter (r.isCompatible coreOf) }
  | .removeAllActions =>
      { history with
        set := history.set.removeAllActions.1
        contents := []
        returned := some history.set.removeAllActions.2
        expected := history.contents }
  | .getBlockedActions =>
      { history with
        returned := history.set.getBlockedActions
        expected := history.contents }

def system (coreCount : Nat) : TransitionSystem SetHistory SetOperation where
  start := start coreCount
  Enabled := Enabled coreOf
  next := next coreOf

/-- The set is a multiset that is indexed by core. -/
structure IsMultiset : Prop where
  counted :
    ∀ coreId,
      (history.set.getActionCounts[coreId]?.getD 0 : Int) =
        history.contents.countP (coreOf · = some coreId)
  held : history.set.getAllActions.Perm history.contents
  answered :
    ∃ actions, history.returned = some actions ∧
      actions.Perm history.expected

/-- The calls that keep the multiset. -/
def Kept : SetOperation → Prop
  | .addAction aa implementation =>
      implementation = (coreOf aa).elim .missing .ofCore
  | .removeAction action => coreOf action = none ∨ action ∈ history.contents
  | .removeAllCompatibleActions r =>
      ∀ coreId ∈ r.executableCores, coreId < history.set.coreIndexed.length
  | .getBlockedActions => ∀ aa ∈ history.contents, coreOf aa = none
  | _ => True

section Steps

open CountedActionSet

variable {coreOf} {history}

theorem IsMultiset.ofFiled
    (filed : Filed coreOf history.set)
    (held : history.set.getAllActions.Perm history.contents)
    (answered :
      ∃ actions, history.returned = some actions ∧
        actions.Perm history.expected) :
    history.IsMultiset coreOf where
  counted := by
    intro coreId
    rw [filed.count coreId, held.countP_eq]
  held := held
  answered := answered

variable {operation : SetOperation}

/-- The calls that are kept to do what they should. -/
theorem isMultiset_next
    (isMultiset : history.IsMultiset coreOf)
    (filed : Filed coreOf history.set)
    (enabled : history.Enabled coreOf operation)
    (kept : history.Kept coreOf operation) :
    (history.next coreOf operation).IsMultiset coreOf ∧
      Filed coreOf (history.next coreOf operation).set := by
  have held := isMultiset.held
  cases operation with
  | registerCores coreCount =>
      exact ⟨.ofFiled filed held isMultiset.answered, filed⟩
  | updateCoreCount newCoreCount =>
      have grown := filed.updateCoreCount newCoreCount
      refine ⟨.ofFiled grown ?_ ⟨[], rfl, .refl _⟩, grown⟩
      exact (getAllActions_updateCoreCount _ _).symm ▸ held
  | addAction aa implementation =>
      obtain rfl : implementation = (coreOf aa).elim .missing .ofCore := kept
      obtain ⟨after, returned, afterFiled⟩ := filed.addAction enabled.1
      have withoutCounters := toActionSet_addAction history.set aa
        ((coreOf aa).elim .missing .ofCore) history.coreCount
      rw [returned] at withoutCounters
      have perm := addAction_perm withoutCounters.symm
      simp only [next, called, returned]
      exact ⟨.ofFiled afterFiled (perm.trans (held.cons aa))
        ⟨[], rfl, .refl _⟩, afterFiled⟩
  | removeAction action =>
      obtain ⟨after, returned, afterFiled, perm⟩ :=
        filed.removeAction action (by
          intro coreId ofCore
          rcases kept with ofNoCore | inContents
          · rw [ofNoCore] at ofCore
            cases ofCore
          · exact held.mem_iff.mpr inContents)
      simp only [next, called, returned]
      exact ⟨.ofFiled afterFiled (perm.trans (held.erase action))
        ⟨[], rfl, .refl _⟩, afterFiled⟩
  | removeAllCompatibleActions r =>
      obtain ⟨after, removed, returned, afterFiled, taken, left⟩ :=
        filed.removeAllCompatibleActions r kept
      simp only [next, returned]
      exact ⟨.ofFiled afterFiled (left.trans (held.filter _))
        ⟨removed, rfl, taken.trans (held.filter _)⟩, afterFiled⟩
  | removeAllActions =>
      refine ⟨.ofFiled filed.removeAllActions ?_ ⟨_, rfl, held⟩,
        filed.removeAllActions⟩
      exact .of_eq (getAllActions_removeAllActions _)
  | getBlockedActions =>
      refine ⟨.ofFiled filed held ⟨history.set.noCore, rfl, ?_⟩, filed⟩
      have inNoCore : history.set.coreIndexed.flatten = [] := by
        rw [eq_nil_iff_forall_not_mem]
        intro aa member
        obtain ⟨actions, listed, inActions⟩ := mem_flatten.mp member
        obtain ⟨coreId, entry⟩ := mem_iff_getElem?.mp listed
        have ofCore := filed.ofCore coreId aa (by rw [entry]; exact inActions)
        have inContents := held.mem_iff.mp (mem_append_right _ member)
        rw [kept aa inContents] at ofCore
        cases ofCore
      rw [getAllActions, inNoCore, append_nil] at held
      exact held

/-- The other calls throw, lose count, or leave actions out. -/
theorem kept_of_isMultiset_next
    (isMultiset : history.IsMultiset coreOf)
    (filed : Filed coreOf history.set)
    (enabled : history.Enabled coreOf operation)
    (after : (history.next coreOf operation).IsMultiset coreOf) :
    history.Kept coreOf operation := by
  obtain ⟨actions, answer, expected⟩ := after.answered
  cases operation with
  | registerCores coreCount => trivial
  | updateCoreCount newCoreCount => trivial
  | removeAllActions => trivial
  | addAction aa implementation =>
      cases core : coreOf aa with
      | none =>
          rcases enabled.2 with rfl | rfl
          · simp [Kept, core]
          · simp [next, called, core, CountedActionSet.addAction,
              value?] at answer
      | some coreId =>
          rcases enabled.2 with rfl | rfl
          · -- The action is in the set, but its core does not count it.
            have before := isMultiset.counted coreId
            have now := after.counted coreId
            simp only [next, called, CountedActionSet.addAction,
              state_returned, getActionCounts,
              countP_cons, core] at before now
            rw [before] at now
            simp only [decide_true, if_true] at now
            omega
          · simp [Kept, core]
  | removeAction action =>
      cases core : coreOf action with
      | none => exact .inl core
      | some coreId =>
          refine .inr (by_contra fun absent => ?_)
          by_cases known : coreId < history.set.coreIndexed.length
          · -- The counter is decreased although nothing is removed.
            have before := isMultiset.counted coreId
            have now := after.counted coreId
            have inCounts : coreId < history.set.counts.length := by
              rw [filed.counts, length_map]
              exact known
            simp only [next, called, CountedActionSet.removeAction, core, known,
              if_true, state_returned, getActionCounts,
              erase_of_not_mem absent] at before now
            rw [getElem?_modify, getElem?_eq_getElem inCounts] at now
            rw [getElem?_eq_getElem inCounts] at before
            simp only [if_true, Option.map_eq_map, Option.map_some,
              Option.getD_some] at before now
            omega
          · simp [next, called, CountedActionSet.removeAction, core, known,
              value?] at answer
  | removeAllCompatibleActions r =>
      obtain ⟨emptied, returned⟩ := value?_eq_some.mp answer
      obtain ⟨_, _, fromCores, _⟩ := andThen_eq_returned.mp returned
      have inside := removeCores_inside fromCores
      exact inside
  | getBlockedActions =>
      intro aa member
      have same : history.set.noCore = actions := Option.some.inj answer
      rw [← same] at expected
      exact filed.ofNoCore aa (expected.mem_iff.mpr member)

variable (coreCount : Nat)

theorem filed_start :
    CountedActionSet.Filed coreOf (start coreCount).set :=
  .new coreCount

theorem isMultiset_start :
    (start coreCount).IsMultiset coreOf :=
  .ofFiled (filed_start coreCount)
    (.of_eq (getAllActions_new coreCount)) ⟨[], rfl, .refl _⟩

end Steps

/--
The set is a multiset indexed by core, and answers as one, in every state of a
run exactly when actions are added under their core, no absent action of a core
is removed, no worker brings a core that the set does not know, and the blocked
actions are asked for when none of them is of a core.
-/
theorem isMultisetThroughout_iff
    {coreOf : ActionId → Option CoreId}
    {coreCount : Nat}
    {operations : List SetOperation}
    {history : SetHistory}
    (run : Run (system coreOf coreCount) anyStep operations history) :
    (∀ before reached, before <+: operations →
      Run (system coreOf coreCount) anyStep before reached →
        reached.IsMultiset coreOf) ↔
      Run (system coreOf coreCount) (Kept coreOf) operations history := by
  apply run.holdsThroughout_iff_of_invariant
    (fun history => CountedActionSet.Filed coreOf history.set)
    (isMultiset_start coreCount) (filed_start coreCount)
  · intro history operation isMultiset filed enabled kept
    exact (isMultiset_next isMultiset filed enabled kept).2
  · intro history operation isMultiset filed enabled
    constructor
    · exact kept_of_isMultiset_next isMultiset filed enabled
    · intro kept
      exact (isMultiset_next isMultiset filed enabled kept).1

/-- Action 0 is of core 0, the other actions start workers. -/
def firstOfCore (action : ActionId) : Option CoreId :=
  if action = 0 then some 0 else none

/-- A worker that executes core 0 -/
def executor : CompatibleWorker where
  executableCores := [0]
  idealSimultaneousTasks coreId := if coreId = 0 then 2 else 0
  executableCores_iff := by
    intro coreId
    by_cases first : coreId = 0
    · simp [first]
    · simp [first]
  isStartedBy _ := false

def freed : List SetOperation :=
  [.addAction 0 (.ofCore 0), .addAction 1 .missing,
    .removeAllCompatibleActions executor, .getBlockedActions,
    .removeAllActions]

theorem isMultiset_freed :
    ((system firstOfCore 1).after freed).IsMultiset firstOfCore := by
  have run : Run (system firstOfCore 1) (Kept firstOfCore) freed
      ((system firstOfCore 1).after freed) := by
    apply run_of_executable
    refine ⟨⟨⟨?_, .inr rfl⟩, rfl⟩, ⟨⟨?_, .inl rfl⟩, rfl⟩, ⟨trivial, ?_⟩,
      ⟨trivial, ?_⟩, ⟨trivial, trivial⟩, trivial⟩
    · intro coreId ofCore
      cases ofCore
      exact Nat.one_pos
    · intro coreId ofCore
      cases ofCore
    · show ∀ coreId ∈ [0], coreId < 1
      decide
    · show ∀ aa ∈ [1], firstOfCore aa = none
      decide
  exact (isMultisetThroughout_iff (run.mono fun _ _ _ => trivial)).mpr run
    freed _ (prefix_refl _) (run.mono fun _ _ _ => trivial)

def blockedOnce : List SetOperation :=
  [.addAction 0 (.ofCore 0), .getBlockedActions]

/-- The only blocked action is not among those that are returned. -/
theorem not_isMultiset_blockedOnce :
    Run (system firstOfCore 1) anyStep blockedOnce
        ((system firstOfCore 1).after blockedOnce) ∧
      ¬ ((system firstOfCore 1).after blockedOnce).IsMultiset firstOfCore := by
  constructor
  · apply run_of_executable
    refine ⟨⟨⟨?_, .inr rfl⟩, trivial⟩, ⟨trivial, trivial⟩, trivial⟩
    intro coreId ofCore
    cases ofCore
    exact Nat.one_pos
  · intro isMultiset
    obtain ⟨actions, answer, expected⟩ := isMultiset.answered
    obtain rfl : [] = actions := Option.some.inj answer
    exact absurd expected.length_eq (by decide)

end SetHistory

end DistributedRdf.Scheduling
