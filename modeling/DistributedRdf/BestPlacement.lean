import DistributedRdf.DispatcherRuns

namespace DistributedRdf.Scheduling

open SchedulerEnv Dispatcher Option

/-!
# The best placement of a task

A task goes to the worker and the implementation with the greatest score among
those that have one.  Scores are compared part by part.
-/

def Scores.lexicographic (scores : Scores) : Scores :=
  { scores with isBetter := Score.isBetter }

/-- Something at least as good as the score has been found. -/
def Reaches (best : Option BestChoice) (score : Score) : Prop :=
  ∃ choice, best = some choice ∧ score.key ≤ choice.score.key

/-- A loop that gives up what it has found only for something better -/
theorem foldl_reaches
    {Element : Type}
    {consider : Option BestChoice → Element → Option BestChoice}
    {Offers : Element → Score → Prop}
    (keeps :
      ∀ best element score,
        Reaches best score → Reaches (consider best element) score)
    (takes :
      ∀ best element score,
        Offers element score → Reaches (consider best element) score)
    (elements : List Element)
    (best : Option BestChoice) :
    (∀ score, Reaches best score →
      Reaches (elements.foldl consider best) score) ∧
        ∀ element ∈ elements, ∀ score, Offers element score →
          Reaches (elements.foldl consider best) score := by
  induction elements generalizing best with
  | nil => exact ⟨fun _ reaches => reaches, nofun⟩
  | cons first rest hypothesis =>
      obtain ⟨kept, taken⟩ := hypothesis (consider best first)
      refine ⟨fun score reaches => kept score (keeps best first score reaches),
        fun element member score offers => ?_⟩
      rcases List.mem_cons.mp member with rfl | later
      · exact kept score (takes best element score offers)
      · exact taken element later score offers

namespace SchedulerEnv

variable
  (kind : SchedulerKind)
  (scores : Scores)
  (env : SchedulerEnv)
  (action : ActionId)

/-- Of the workers of other actions, those that are assigned already -/
def workersFor : List WorkerId :=
  match (env.actions action).kind with
  | .execution coreId none constrainingPredecessors =>
      if constrainingPredecessors = [] then env.coreToWorkers[coreId]?.getD []
      else constrainingPredecessors.filterMap env.assignedResource
  | .execution _ (some worker) _ | .startWorker worker => [worker]

/-- The other actions are assigned, and the core of the action is known. -/
def Askable : Prop :=
  match (env.actions action).kind with
  | .execution coreId none constrainingPredecessors =>
      if constrainingPredecessors = [] then coreId < env.coreToWorkers.length
      else ∀ a ∈ constrainingPredecessors, (env.assignedResource a).isSome
  | .execution _ (some _) _ | .startWorker _ => True

variable (coreId : CoreId)

/-- Of the pairs with a score, one with the greatest -/
structure IsBest (choice : BestChoice) : Prop where
  chosen :
    ChosenFrom kind scores env action coreId
      (env.usefulResources action (env.workersFor action)) choice
  greatest :
    ∀ worker ∈ env.usefulResources action (env.workersFor action),
      ∀ impl ∈ (env.workers worker).features.executableImpls coreId,
        ∀ score,
          env.generateImplementationScore kind scores action worker impl =
            some score →
              score.key ≤ choice.score.key

variable {kind scores env action}

theorem candidates_of_askable (askable : env.Askable action) :
    env.candidates action = .ok (env.workersFor action) := by
  rw [Askable] at askable
  rw [candidates, isSchedulingConstrained, getConstrainingPredecessors,
    workersFor]
  split at askable
  case h_1 coreId constrainingPredecessors isKind =>
    rw [isKind]
    dsimp only
    split at askable
    case isTrue free =>
      subst free
      rw [List.getElem?_eq_getElem askable]
      rfl
    case isFalse constrained =>
      rw [if_pos (decide_eq_true constrained),
        if_pos (List.all_eq_true.mpr askable), if_neg constrained]
  case h_2 coreId worker constrainingPredecessors isKind => rw [isKind]
  case h_3 worker isKind => rw [isKind]

theorem candidates_of_not_askable (notAskable : ¬ env.Askable action) :
    ∃ exception, env.candidates action = .error exception := by
  rw [Askable] at notAskable
  rw [candidates, isSchedulingConstrained, getConstrainingPredecessors]
  split at notAskable
  case h_1 coreId constrainingPredecessors isKind =>
    rw [isKind]
    dsimp only
    split at notAskable
    case isTrue free =>
      subst free
      rw [List.getElem?_eq_none (Nat.le_of_not_lt notAskable)]
      exact ⟨_, rfl⟩
    case isFalse constrained =>
      rw [if_pos (decide_eq_true constrained),
        if_neg (mt List.all_eq_true.mp notAskable)]
      exact ⟨_, rfl⟩
  case h_2 => exact absurd trivial notAskable
  case h_3 => exact absurd trivial notAskable

theorem considerImplementation_reaches
    (worker : WorkerId)
    (best : Option BestChoice)
    (impl : Implementation) :
    (∀ score, Reaches best score →
      Reaches (env.considerImplementation kind scores.lexicographic action
        worker best impl) score) ∧
          ∀ score,
            env.generateImplementationScore kind scores.lexicographic action
              worker impl = some score →
                Reaches (env.considerImplementation kind scores.lexicographic
                  action worker best impl) score := by
  rw [considerImplementation]
  cases env.generateImplementationScore kind scores.lexicographic action worker
    impl with
  | none => exact ⟨fun _ reaches => reaches, nofun⟩
  | some implScore =>
      dsimp only
      split
      case isTrue better =>
        refine ⟨?_, fun score same => ⟨_, rfl, ?_⟩⟩
        · rintro score ⟨choice, rfl, atLeast⟩
          have less := (Score.isBetter_iff implScore choice.score).mp better
          exact ⟨_, rfl, atLeast.trans less.le⟩
        · rw [some.inj same]
      case isFalse notBetter =>
        refine ⟨fun _ reaches => reaches, fun score same => ?_⟩
        cases best with
        | none => exact absurd rfl notBetter
        | some choice =>
            refine ⟨choice, rfl, not_lt.mp fun less => notBetter ?_⟩
            rw [← some.inj same] at less
            exact (Score.isBetter_iff implScore choice.score).mpr less

theorem bestChoice_reaches
    (workers : List WorkerId)
    (worker : WorkerId)
    (isCandidate : worker ∈ workers)
    (impl : Implementation)
    (executable :
      impl ∈ (env.workers worker).features.executableImpls coreId)
    (score : Score)
    (scored :
      env.generateImplementationScore kind scores.lexicographic action worker
        impl = some score) :
    Reaches (env.bestChoice kind scores.lexicographic action coreId workers)
      score := by
  have loop (worker : WorkerId) (best : Option BestChoice) :=
    foldl_reaches
      (fun best impl =>
        (@considerImplementation_reaches kind scores env action worker best
          impl).1)
      (fun best impl =>
        (@considerImplementation_reaches kind scores env action worker best
          impl).2)
      ((env.workers worker).features.executableImpls coreId) best
  have all :=
    @foldl_reaches _
      (env.considerWorker kind scores.lexicographic action coreId)
      (fun worker score =>
        ∃ impl ∈ (env.workers worker).features.executableImpls coreId,
          env.generateImplementationScore kind scores.lexicographic action
            worker impl = some score)
      (fun best worker => (loop worker best).1)
      (fun best worker score ⟨impl, executable, scored⟩ =>
        (loop worker best).2 impl executable score scored)
      workers none
  exact all.2 worker isCandidate score ⟨impl, executable, scored⟩

end SchedulerEnv

namespace World

variable
  (kind : SchedulerKind)
  (scores : Scores)
  (world : SchedulerWorld)
  (action : ActionId)
  (coreId : CoreId)

/-- Without a choice, the assignment is what it was before. -/
def PlacedBest : Prop :=
  let env := world.env
  let useful := env.usefulResources action (env.workersFor action)
  match world.schedule kind scores action with
  | .returned after .assigned =>
      ∃ choice, env.IsBest kind scores action coreId choice ∧
        (after.env.actions action).assigned =
          some ⟨choice.worker, choice.implementation⟩
  | .returned after .unassigned =>
      useful ≠ [] ∧ NoneScored kind scores env action coreId useful ∧
        (after.env.actions action).assigned = (env.actions action).assigned
  | .returned after .blocked =>
      useful = [] ∧
        (after.env.actions action).assigned = (env.actions action).assigned
  | .raised _ _ => False

/-- The action can be assigned, or does not have to be. -/
def Assigns : Prop :=
  let env := world.env
  (world.graph action).state = .RUNNABLE ∨
    NoneScored kind scores env action coreId
        (env.usefulResources action (env.workersFor action)) ∨
      ∃ choice, env.IsBest kind scores action coreId choice ∧
        (env.actions action).assigned =
          some ⟨choice.worker, choice.implementation⟩

variable {kind scores world action coreId}

/-- One action is constrained to another one, which is not assigned. -/
private def constrained : SchedulerWorld :=
  let world := (start singleProcessors).world
  { world with
    env := { world.env with
      actions := fun action =>
        .new (.execution 0 (if action = 0 then some 0 else none)
          (if action = 1 then [0] else [])) } }

end World

end DistributedRdf.Scheduling
