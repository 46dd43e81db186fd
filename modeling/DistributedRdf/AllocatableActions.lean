import DistributedRdf.FailFastList

namespace DistributedRdf.Scheduling

open Java

/-!
# Actions and their data dependencies

Actions live in a heap.  What a subclass does in its hooks (releasing resources,
notifying the end of its task) happens in the environment of the heap.
-/

abbrev ActionId := Nat

/-- `AllocatableAction.State` -/
inductive ActionState where
  | RUNNABLE
  | WAITING
  | RUNNING
  | FINISHED
  | FAILED
  deriving DecidableEq

/-- The state of an action and its dependencies. -/
structure ActionNode where
  state : ActionState
  dataPredecessors : LinkedList ActionId
  dataSuccessors : LinkedList ActionId

namespace ActionNode

def new : ActionNode where
  state := .RUNNABLE
  dataPredecessors := .empty
  dataSuccessors := .empty

variable (node : ActionNode)

def isPending : Bool :=
  node.state ≠ .FAILED ∧ node.state ≠ .FINISHED

def isRunning : Bool :=
  node.state = .RUNNING

def hasDataPredecessors : Bool :=
  node.dataPredecessors.items ≠ []

end ActionNode

variable (Env : Type u)

/-- The heap of actions; `doFailedCalls` logs the calls of `doFailed`. -/
structure World where
  graph : ActionId → ActionNode
  nextId : ActionId
  env : Env
  doFailedCalls : List ActionId

/-- The hooks of an action that `failed` calls. -/
structure ActionHooks where
  releaseResources : ActionId → Env → Outcome Env Unit
  cancelAction : ActionId → Env → Outcome Env Unit
  doFailed : ActionId → Env → Outcome Env Unit

namespace World

variable {Env : Type u}

/-- Actions that are created but do not depend on each other yet. -/
def fresh (nextId : ActionId) (env : Env) : World Env where
  graph _ := .new
  nextId := nextId
  env := env
  doFailedCalls := []

variable
  (world : World Env)
  (action : ActionId)

def modify
    (change : ActionNode → ActionNode) : World Env :=
  { world with
    graph := Function.update world.graph action (change (world.graph action)) }

def setState
    (state : ActionState) : World Env :=
  world.modify action fun node => { node with state := state }

def callHook
    (hook : Env → Outcome Env Unit) : Outcome (World Env) Unit :=
  (hook world.env).onState fun env => { world with env := env }

def addDataPredecessor
    (action predecessor : ActionId) : World Env :=
  if (world.graph predecessor).isPending then
    let linked :=
      if predecessor ∈ (world.graph action).dataPredecessors.items then
        world
      else
        world.modify action fun node =>
          { node with dataPredecessors := node.dataPredecessors.add predecessor }
    if action ∈ (linked.graph predecessor).dataSuccessors.items then
      linked
    else
      linked.modify predecessor fun node =>
        { node with dataSuccessors := node.dataSuccessors.add action }
  else
    world

def dataPredecessorDone
    (action finishedAction : ActionId) : World Env :=
  world.modify action fun node =>
    { node with
      dataPredecessors := node.dataPredecessors.removeEach finishedAction }

/-- `pred.dataSuccessors.remove(this)` for one predecessor -/
def forgetSuccessor
    (world : World Env)
    (predecessor : ActionId) : World Env :=
  world.modify predecessor fun node =>
    { node with dataSuccessors := node.dataSuccessors.remove action }

/-- Predecessors ignore the action. -/
def ignoreAction : World Env :=
  (world.graph action).dataPredecessors.items.foldl (forgetSuccessor action)
    world

def clearDependencies : World Env :=
  world.modify action fun node =>
    { node with
      dataPredecessors := node.dataPredecessors.clear
      dataSuccessors := node.dataSuccessors.clear }

/--
`failed()`, with a bound on the depth of its recursion.  The iteration goes over
the list of successors that the recursive calls shrink.
-/
def failedWithin (hooks : ActionHooks Env) :
    Nat → ActionId → World Env → Outcome (World Env) (List ActionId)
  | 0, _, world => .raised world .stackOverflow
  | depth + 1, action, world =>
      ((world.setState action .FAILED).callHook
        (hooks.releaseResources action)).andThen fun world _ =>
      (world.callHook (hooks.cancelAction action)).andThen fun world _ =>
      (LinkedList.forEach
        (fun world => (world.graph action).dataSuccessors)
        (failedWithin hooks depth)
        (world.ignoreAction action)).andThen fun world failed =>
      let cleared := world.clearDependencies action
      ({ cleared with
        doFailedCalls := cleared.doFailedCalls ++ [action]
      }.callHook (hooks.doFailed action)).andThen fun world _ =>
        .returned world (failed ++ [action])

/-- Without cycles no chain of successors is longer than the heap. -/
def failed
    (hooks : ActionHooks Env)
    (action : ActionId) : Outcome (World Env) (List ActionId) :=
  failedWithin hooks (world.nextId + 1) action world

end World

end DistributedRdf.Scheduling
