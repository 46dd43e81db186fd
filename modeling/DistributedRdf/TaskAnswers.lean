import DistributedRdf.CommandRoundTrip
import DistributedRdf.TransitionSystem
import Mathlib.Data.List.Forall2

namespace DistributedRdf.Piper

open Execution Words List Option

/-!
# Answers of a Python process

The process reads lines from a pipe, executes the task of each task command and
answers with the end of the task, until it reads the quit line.
-/

section Execution

variable (doubles : Doubles) (Object : Type)

/-- The exception that each part of a task raises, if any -/
structure TaskBehaviour where
  /-- `from storage.api import ...` -/
  importStorage : Option PythonException
  importModule : Option PythonException
  /-- The function of the module, in its context -/
  callFunction : Option PythonException
  /-- The import of the class that the path ends with -/
  importClass : Option PythonException
  deserializeSelf : Option PythonException
  callMethod : Option PythonException
  serializeSelf : Option PythonException

variable {doubles} {Object}

def raising : Option PythonException → Except PythonException Unit
  | none => .ok ()
  | some exception => .error exception

variable
  (behaviour : TaskBehaviour)
  (task : TaskParameters doubles Object)

/-- An instance method; `values.pop()` takes the file of the target. -/
def instanceMethod :
    Except PythonException Unit :=
  match task.parameters with
  | [] => .error .otherException
  | _ :: _ => do
      raising behaviour.deserializeSelf
      raising behaviour.callMethod
      raising behaviour.serializeSelf

/-- The handler of `ImportError`: the method is looked for in a class. -/
def methodInClass :
    Except PythonException Unit := do
  raising behaviour.importClass
  if task.hasTarget = "true".toList then
    instanceMethod behaviour task
  else
    raising behaviour.callMethod

/-- The second part of `execute_task` -/
def callTask :
    Except PythonException Int :=
  let called : Except PythonException Unit := do
    raising behaviour.importModule
    raising behaviour.callFunction
  match called with
  | .ok () => .ok 0
  -- The handler calls `exit(1)`.
  | .error .attributeError => .error .systemExit
  | .error .importError => do
      methodInClass behaviour task
      return 0
  | .error .systemExit => .error .systemExit
  | .error .otherException => .ok 1

/-- The exit value of a task, or the exception that it leaves to the worker -/
def executeTask
    (doubles : Doubles)
    (process : PythonProcess Object)
    (behaviour : TaskBehaviour)
    (params : List Text) :
    Except PythonException Int := do
  raising (if process.persistentStorage then behaviour.importStorage else none)
  let task : TaskParameters doubles Object ← taskParameters process params
  callTask behaviour task

end Execution

/-! ## The loop of the worker -/

section Worker

variable {Object : Type}

/-- The message for the end of a task -/
def endTaskMessage (jobId : Text) (exitvalue : Int) : Text :=
  "endTask".toList ++ ' ' :: (jobId ++ ' ' :: (decimal exitvalue ++ ['\n']))

structure LineOutcome where
  /-- What becomes of `alive`, or nothing when an exception ends the process -/
  alive : Option Bool
  message : Option Text
  /-- `execute_task` has been called. -/
  executed : Bool

def processTask
    (doubles : Doubles)
    (process : PythonProcess Object)
    (line : Text)
    (behaviour : TaskBehaviour) :
    LineOutcome :=
  if line ≠ [] then
    match words line with
    | [] => ⟨none, none, false⟩
    | tag :: rest =>
        if tag = "task".toList then
          match taskLine (tag :: rest) with
          | .error _ => ⟨none, none, false⟩
          | .ok task =>
              match executeTask doubles process behaviour task.params with
              | .ok exitvalue =>
                  ⟨some true, some (endTaskMessage task.jobId exitvalue), true⟩
              | .error .systemExit => ⟨none, none, true⟩
              | .error _ => ⟨some true, none, true⟩
        else if tag = "quit".toList then
          ⟨some false, none, false⟩
        else
          ⟨some true, none, false⟩
  else
    ⟨some true, none, false⟩

inductive Serving where
  /-- In the loop over the lines of the pipe -/
  | reading
  | finished
  /-- An exception has ended the process. -/
  | died
  deriving DecidableEq

/-- A task command that was read, and whether its task returned -/
structure Command where
  jobId : Text
  returned : Bool

structure WorkerHistory where
  alive : Bool
  serving : Serving
  messages : List Text
  quitRead : Bool
  /-- The task commands that were read before a quit line -/
  commands : List Command
  executedAfterQuit : Bool

inductive PipeEvent where
  | line (text : Text) (behaviour : TaskBehaviour)
  /-- All writers have closed the pipe. -/
  | endOfFile

/-- The task has returned, from the function of its module or from the method of
its class. -/
def taskReturned
    {doubles : Doubles}
    (behaviour : TaskBehaviour)
    (task : TaskParameters doubles Object) :
    Bool :=
  match behaviour.importModule with
  | none => behaviour.callFunction.isNone
  | some exception =>
      decide (exception = .importError) && (methodInClass behaviour task).isOk

def returnsNormally
    (doubles : Doubles)
    (process : PythonProcess Object)
    (behaviour : TaskBehaviour)
    (params : List Text) :
    Bool :=
  let parsed : Except PythonException (TaskParameters doubles Object) :=
    taskParameters process params
  match parsed with
  | .error _ => false
  | .ok task =>
      (!process.persistentStorage || behaviour.importStorage.isNone) &&
        taskReturned behaviour task

def command
    (doubles : Doubles)
    (process : PythonProcess Object)
    (text : Text)
    (behaviour : TaskBehaviour) :
    Command where
  jobId := (words text)[1]?.getD []
  returned :=
    match taskLine (words text) with
    | .error _ => false
    | .ok task => returnsNormally doubles process behaviour task.params

namespace WorkerHistory

def start : WorkerHistory where
  alive := true
  serving := .reading
  messages := []
  quitRead := false
  commands := []
  executedAfterQuit := false

variable
  (doubles : Doubles)
  (process : PythonProcess Object)
  (history : WorkerHistory)

def next :
    PipeEvent → WorkerHistory
  | .endOfFile =>
      { history with
        serving := if history.alive then .reading else .finished }
  | .line text behaviour =>
      let outcome := processTask doubles process text behaviour
      { alive := outcome.alive.getD history.alive
        serving := if outcome.alive.isSome then .reading else .died
        messages := history.messages ++ outcome.message.toList
        quitRead :=
          history.quitRead || decide ((words text).head? = some "quit".toList)
        commands :=
          if (words text).head? = some "task".toList ∧
              history.quitRead = false then
            history.commands ++ [command doubles process text behaviour]
          else
            history.commands
        executedAfterQuit :=
          history.executedAfterQuit ||
            history.quitRead && outcome.executed }

def system :
    TransitionSystem WorkerHistory PipeEvent where
  start := start
  Enabled history _ := history.serving = .reading
  next := next doubles process

/-- The message for a command, with status 0 when its task has returned -/
def Answers (command : Command) (message : Text) : Prop :=
  ∃ status, message = endTaskMessage command.jobId status ∧
    (status = 0 ↔ command.returned = true)

/-- One answer for each command, and no end but after a quit line -/
structure Answered : Prop where
  messages : List.Forall₂ Answers history.commands history.messages
  alive : history.alive = false → history.quitRead = true
  serving : history.serving ≠ .reading → history.quitRead = true
  quiet : history.executedAfterQuit = false

end WorkerHistory

/-- The parts of a task that are needed to find its method in a class -/
def CallsMethod
    {doubles : Doubles}
    (behaviour : TaskBehaviour)
    (task : TaskParameters doubles Object) :
    Prop :=
  behaviour.importClass = none ∧ behaviour.callMethod = none ∧
    (task.hasTarget = "true".toList →
      task.parameters ≠ [] ∧ behaviour.deserializeSelf = none ∧
        behaviour.serializeSelf = none)

/-- The task ends in one of the ways for which it has an exit value. -/
def EndsHandled
    {doubles : Doubles}
    (behaviour : TaskBehaviour)
    (task : TaskParameters doubles Object) :
    Prop :=
  match behaviour.importModule with
  | none =>
      behaviour.callFunction = none ∨
        behaviour.callFunction = some .otherException
  | some exception =>
      exception = .otherException ∨
        exception = .importError ∧ CallsMethod behaviour task

/-- The parameters of the task can be read, and it ends in a handled way. -/
def Handled
    (doubles : Doubles)
    (process : PythonProcess Object)
    (behaviour : TaskBehaviour)
    (params : List Text) :
    Prop :=
  (process.persistentStorage = true → behaviour.importStorage = none) ∧
    ∃ task : TaskParameters doubles Object,
      taskParameters process params = .ok task ∧ EndsHandled behaviour task

/-- The lines after which every command is answered -/
def WorkerHistory.KeepsAnswering
    (doubles : Doubles)
    (process : PythonProcess Object)
    (history : WorkerHistory) :
    PipeEvent → Prop
  | .endOfFile => True
  | .line text behaviour =>
      (text ≠ [] → words text = [] → history.quitRead = true) ∧
        ((words text).head? = some "task".toList →
          if history.quitRead then
            ∀ task, taskLine (words text) ≠ .ok task
          else
            ∃ task, taskLine (words text) = .ok task ∧
              Handled doubles process behaviour task.params)

/-! ## One task -/

section Task

variable
  {doubles : Doubles}
  {process : PythonProcess Object}
  {behaviour : TaskBehaviour}
  {params : List Text}
  {raised : Option PythonException}
  {result : Unit}

theorem raising_eq_ok_iff :
    raising raised = .ok result ↔ raised = none := by
  cases raised with
  | none => simp [raising]
  | some exception => simp [raising]

theorem raising_bind_eq_ok
    {α : Type}
    {after : Unit → Except PythonException α}
    {result : α} :
    (raising raised >>= after) = .ok result ↔
      raised = none ∧ after () = .ok result := by
  rw [bind_eq_ok]
  constructor
  · rintro ⟨value, raises, found⟩
    exact ⟨raising_eq_ok_iff.mp raises, found⟩
  · rintro ⟨raises, found⟩
    exact ⟨(), raising_eq_ok_iff.mpr raises, found⟩

variable {task : TaskParameters doubles Object}

theorem instanceMethod_eq_ok_iff :
    instanceMethod behaviour task = .ok result ↔
      task.parameters ≠ [] ∧ behaviour.deserializeSelf = none ∧
        behaviour.callMethod = none ∧ behaviour.serializeSelf = none := by
  unfold instanceMethod
  cases task.parameters with
  | nil => simp
  | cons first later =>
      dsimp only
      rw [raising_bind_eq_ok, raising_bind_eq_ok, raising_eq_ok_iff]
      simp

theorem methodInClass_eq_ok_iff :
    methodInClass behaviour task = .ok result ↔
      CallsMethod behaviour task := by
  rw [methodInClass, raising_bind_eq_ok]
  refine and_congr_right fun _ => ?_
  split
  · rename_i hasTarget
    rw [instanceMethod_eq_ok_iff]
    tauto
  · rename_i noTarget
    rw [raising_eq_ok_iff]
    exact ⟨fun returns => ⟨returns, fun hasTarget => absurd hasTarget noTarget⟩,
      And.left⟩

theorem endsHandled_iff :
    (∃ status, callTask behaviour task = .ok status ∧
      (status = 0 ↔ taskReturned behaviour task = true)) ↔
      EndsHandled behaviour task := by
  unfold callTask taskReturned EndsHandled
  cases behaviour.importModule with
  | none =>
      cases behaviour.callFunction with
      | none => simp [raising, bind, Except.bind]
      | some exception =>
          cases exception with
          | attributeError => simp [raising, bind, Except.bind]
          | importError =>
              -- The function has raised it, so that 0 is a wrong exit value.
              refine iff_of_false ?_ (by simp)
              rintro ⟨status, called, normal⟩
              change (methodInClass behaviour task >>= fun _ => .ok 0) = _
                at called
              obtain ⟨_, -, found⟩ := bind_eq_ok.mp called
              exact absurd (normal.mp (Except.ok.inj found).symm) (by simp)
          | systemExit | otherException => simp [raising, bind, Except.bind]
  | some exception =>
      cases exception with
      | attributeError => simp [raising, bind, Except.bind]
      | importError =>
          change (∃ status, (methodInClass behaviour task >>= fun _ => .ok 0) =
            .ok status ∧ _) ↔ _
          constructor
          · rintro ⟨status, called, -⟩
            obtain ⟨_, found, -⟩ := bind_eq_ok.mp called
            exact .inr ⟨rfl, methodInClass_eq_ok_iff.mp found⟩
          · rintro (isOther | ⟨-, calls⟩)
            · cases isOther
            · have found : methodInClass behaviour task = .ok () :=
                methodInClass_eq_ok_iff.mpr calls
              refine ⟨0, bind_eq_ok.mpr ⟨(), found, rfl⟩, iff_of_true rfl ?_⟩
              rw [found]
              rfl
      | systemExit => simp [raising, bind, Except.bind]
      | otherException => simp [raising, bind, Except.bind]

theorem executeTask_eq_ok_iff {status : Int} :
    executeTask doubles process behaviour params = .ok status ↔
      (process.persistentStorage = true → behaviour.importStorage = none) ∧
        ∃ task : TaskParameters doubles Object,
          taskParameters process params = .ok task ∧
            callTask behaviour task = .ok status := by
  rw [executeTask, raising_bind_eq_ok, bind_eq_ok]
  refine and_congr_left fun _ => ?_
  cases process.persistentStorage with
  | false => simp
  | true => simp

/-- The exit value says whether the task has returned, or there is none. -/
theorem handled_iff :
    (∃ status, executeTask doubles process behaviour params = .ok status ∧
      (status = 0 ↔
        returnsNormally doubles process behaviour params = true)) ↔
      Handled doubles process behaviour params := by
  have returns : ∀ task : TaskParameters doubles Object,
      (process.persistentStorage = true → behaviour.importStorage = none) →
      taskParameters process params = .ok task →
        returnsNormally doubles process behaviour params =
          taskReturned behaviour task := by
    intro task imports parsed
    simp only [returnsNormally, parsed]
    cases persistent : process.persistentStorage with
    | false => simp
    | true => simp [imports persistent]
  simp only [executeTask_eq_ok_iff]
  constructor
  · rintro ⟨status, ⟨imports, task, parsed, called⟩, normal⟩
    rw [returns task imports parsed] at normal
    exact ⟨imports, task, parsed, endsHandled_iff.mp ⟨status, called, normal⟩⟩
  · rintro ⟨imports, task, parsed, handled⟩
    obtain ⟨status, called, normal⟩ := endsHandled_iff.mpr handled
    refine ⟨status, ⟨imports, task, parsed, called⟩, ?_⟩
    rw [returns task imports parsed]
    exact normal

end Task

/-! ## One line -/

theorem endTaskMessage_inj
    {jobId : Text}
    {first second : Int}
    (same : endTaskMessage jobId first = endTaskMessage jobId second) :
    first = second := by
  unfold endTaskMessage at same
  have numbers := (cons.inj (append_cancel_left
    (cons.inj (append_cancel_left same)).2)).2
  have digits := append_cancel_right numbers
  have read := congrArg toInt digits
  rw [toInt_decimal, toInt_decimal] at read
  exact some.inj read

theorem forall₂_concat_iff
    {α β : Type}
    {Related : α → β → Prop}
    {first : List α}
    {second : List β}
    {a : α}
    {b : β}
    (before : List.Forall₂ Related first second) :
    List.Forall₂ Related (first ++ [a]) (second ++ [b]) ↔ Related a b := by
  induction before with
  | nil => simp
  | cons related _ hypothesis => simp [related, hypothesis]

namespace WorkerHistory

variable
  {doubles : Doubles}
  {process : PythonProcess Object}
  {history : WorkerHistory}
  {text : Text}
  {behaviour : TaskBehaviour}
  {task : TaskLine}

theorem jobId_of_taskLine
    {words : List Text}
    (found : taskLine words = .ok task) :
    words[1]? = some task.jobId := by
  obtain ⟨cpus, -, found⟩ := bind_eq_ok.mp found
  obtain ⟨bound, -, found⟩ := bind_eq_ok.mp found
  obtain ⟨jobId, jobItem, found⟩ := bind_eq_ok.mp found
  obtain ⟨jobOut, -, found⟩ := bind_eq_ok.mp found
  obtain ⟨jobErr, -, found⟩ := bind_eq_ok.mp found
  rw [← Except.ok.inj found]
  have inFront : words.dropLast[1]? = some jobId := item_eq_ok_iff.mp jobItem
  rw [getElem?_dropLast] at inFront
  split at inFront
  · exact inFront
  · cases inFront

/-- A command that is answered with its exit value -/
theorem answers_iff
    {status : Int}
    (isTask : taskLine (words text) = .ok task) :
    Answers (command doubles process text behaviour)
        (endTaskMessage task.jobId status) ↔
      (status = 0 ↔
        returnsNormally doubles process behaviour task.params = true) := by
  have jobId : (command doubles process text behaviour).jobId = task.jobId := by
    rw [command, jobId_of_taskLine isTask, getD_some]
  have returned : (command doubles process text behaviour).returned =
      returnsNormally doubles process behaviour task.params := by
    simp only [command, isTask]
  unfold Answers
  rw [jobId, returned]
  constructor
  · rintro ⟨other, same, normal⟩
    rwa [endTaskMessage_inj same]
  · exact fun normal => ⟨status, rfl, normal⟩

theorem not_forall₂_concat
    {commands : List Command}
    {messages : List Text}
    {unanswered : Command}
    (before : List.Forall₂ Answers commands messages) :
    ¬ List.Forall₂ Answers (commands ++ [unanswered]) messages := by
  intro after
  have length := after.length_eq
  rw [length_append, before.length_eq] at length
  simp at length

variable {rest : List Text}

section

variable (isCommand : words text = "task".toList :: rest)

include isCommand

theorem processTask_command :
    processTask doubles process text behaviour =
      match taskLine (words text) with
      | .error _ => ⟨none, none, false⟩
      | .ok task =>
          match executeTask doubles process behaviour task.params with
          | .ok exitvalue =>
              ⟨some true, some (endTaskMessage task.jobId exitvalue), true⟩
          | .error .systemExit => ⟨none, none, true⟩
          | .error _ => ⟨some true, none, true⟩ := by
  have nonempty : text ≠ [] := by
    rintro rfl
    cases isCommand
  rw [processTask, if_pos nonempty, isCommand]
  exact if_pos rfl

/-- A task that raises an exception to the worker gets no message. -/
theorem message_of_error
    {exception : PythonException}
    (isTask : taskLine (words text) = .ok task)
    (raised :
      executeTask doubles process behaviour task.params = .error exception) :
    (processTask doubles process text behaviour).message = none := by
  rw [processTask_command isCommand, isTask]
  simp only [raised]
  cases exception with
  | systemExit => rfl
  | attributeError => rfl
  | importError => rfl
  | otherException => rfl

end

section

variable (answered : history.Answered)

include answered

/-- A task command before a quit line -/
theorem answered_command_iff
    (isCommand : words text = "task".toList :: rest)
    (noQuit : history.quitRead = false) :
    (history.next doubles process (.line text behaviour)).Answered ↔
      ∃ task, taskLine (words text) = .ok task ∧
        Handled doubles process behaviour task.params := by
  have commands :
      (history.next doubles process (.line text behaviour)).commands =
        history.commands ++ [command doubles process text behaviour] :=
    if_pos ⟨by rw [isCommand]; rfl, noQuit⟩
  have unanswered :
      (processTask doubles process text behaviour).message = none →
        ¬ (history.next doubles process (.line text behaviour)).Answered := by
    intro noMessage after
    have messages := after.messages
    rw [commands, next] at messages
    simp only [noMessage, toList_none, append_nil] at messages
    exact not_forall₂_concat answered.messages messages
  cases isTask : taskLine (words text) with
  | error exception =>
      refine iff_of_false (unanswered ?_) (fun ⟨_, found, _⟩ => nomatch found)
      rw [processTask_command isCommand, isTask]
  | ok task =>
      have onlyTask : (∃ other,
          (Except.ok task : Except PythonException TaskLine) = .ok other ∧
            Handled doubles process behaviour other.params) ↔
              Handled doubles process behaviour task.params := by
        constructor
        · rintro ⟨other, same, handled⟩
          rwa [Except.ok.inj same]
        · exact fun handled => ⟨task, rfl, handled⟩
      rw [onlyTask, ← handled_iff]
      cases executed : executeTask doubles process behaviour task.params with
      | error exception =>
          refine iff_of_false (unanswered ?_)
            (fun ⟨_, found, _⟩ => nomatch found)
          exact message_of_error isCommand isTask executed
      | ok status =>
          have outcome : processTask doubles process text behaviour =
              ⟨some true, some (endTaskMessage task.jobId status), true⟩ := by
            rw [processTask_command isCommand, isTask]
            simp only [executed]
          have messages :
              (history.next doubles process (.line text behaviour)).messages =
                history.messages ++ [endTaskMessage task.jobId status] := by
            simp only [next, outcome, toList_some]
          constructor
          · intro after
            have answers := after.messages
            rw [commands, messages, forall₂_concat_iff answered.messages,
              answers_iff isTask] at answers
            exact ⟨status, rfl, answers⟩
          · rintro ⟨other, same, normal⟩
            obtain rfl := Except.ok.inj same
            refine ⟨?messages, ?alive, ?serving, ?quiet⟩
            case messages =>
              rw [commands, messages, forall₂_concat_iff answered.messages,
                answers_iff isTask]
              exact normal
            case alive => simp [next, outcome]
            case serving => simp [next, outcome]
            case quiet => simp [next, outcome, answered.quiet, noQuit]

/-- A task command after a quit line -/
theorem answered_afterQuit_iff
    (isCommand : words text = "task".toList :: rest)
    (quitRead : history.quitRead = true) :
    (history.next doubles process (.line text behaviour)).Answered ↔
      ∀ task, taskLine (words text) ≠ .ok task := by
  cases isTask : taskLine (words text) with
  | error exception =>
      have outcome : processTask doubles process text behaviour =
          ⟨none, none, false⟩ := by
        rw [processTask_command isCommand, isTask]
      refine iff_of_true ⟨?messages, ?alive, ?serving, ?quiet⟩
        (fun _ found => nomatch found)
      case messages => simpa [next, outcome, quitRead] using answered.messages
      case alive => simp [next, quitRead]
      case serving => simp [next, quitRead]
      case quiet => simp [next, outcome, answered.quiet]
  | ok task =>
      refine iff_of_false (fun after => ?_) (fun none => none task rfl)
      have executed :
          (processTask doubles process text behaviour).executed = true := by
        rw [processTask_command isCommand, isTask]
        dsimp only
        split
        · rfl
        · rfl
        · rfl
      have quiet := after.quiet
      simp [next, executed, quitRead] at quiet

omit answered in
/-- Other lines write no message and execute nothing. -/
theorem processTask_other
    (noCommand : (words text).head? ≠ some "task".toList) :
    processTask doubles process text behaviour =
      ⟨if text ≠ [] ∧ words text = [] then none
        else some (decide ((words text).head? ≠ some "quit".toList)),
        none, false⟩ := by
  unfold processTask
  by_cases isEmpty : text = []
  · subst isEmpty
    rfl
  · rw [if_pos isEmpty]
    cases split : words text with
    | nil => simp [isEmpty]
    | cons tag rest =>
        have noTask : tag ≠ "task".toList := by
          rintro rfl
          exact noCommand (by rw [split, head?_cons])
        have notBlank : ¬ (text ≠ [] ∧ tag :: rest = []) :=
          fun isBlank => nomatch isBlank.2
        rw [if_neg notBlank, head?_cons]
        dsimp only
        rw [if_neg noTask]
        by_cases isQuit : tag = "quit".toList
        · rw [if_pos isQuit, decide_eq_false (by simp [isQuit])]
        · have noQuit : some tag ≠ some "quit".toList :=
            fun same => isQuit (some.inj same)
          rw [if_neg isQuit, decide_eq_true noQuit]

theorem answered_other_iff
    (noCommand : (words text).head? ≠ some "task".toList) :
    (history.next doubles process (.line text behaviour)).Answered ↔
      (text ≠ [] → words text = [] → history.quitRead = true) := by
  have commands :
      (history.next doubles process (.line text behaviour)).commands =
        history.commands :=
    if_neg fun isCommand => noCommand isCommand.1
  have outcome :
      processTask doubles process text behaviour =
        ⟨if text ≠ [] ∧ words text = [] then none
          else some (decide ((words text).head? ≠ some "quit".toList)),
          none, false⟩ :=
    processTask_other noCommand
  have messages :
      (history.next doubles process (.line text behaviour)).messages =
        history.messages := by
    simp only [next, outcome, toList_none, append_nil]
  have quiet :
      (history.next doubles process (.line text behaviour)).executedAfterQuit =
        false := by
    simp only [next, outcome, answered.quiet, Bool.and_false, Bool.or_false]
  have matched : List.Forall₂ Answers
      (history.next doubles process (.line text behaviour)).commands
      (history.next doubles process (.line text behaviour)).messages := by
    rw [commands, messages]
    exact answered.messages
  by_cases isBlank : text ≠ [] ∧ words text = []
  · rw [if_pos isBlank] at outcome
    have quitRead :
        (history.next doubles process (.line text behaviour)).quitRead =
          history.quitRead := by
      simp [next, isBlank.2]
    constructor
    · intro after _ _
      rw [← quitRead]
      refine after.serving ?_
      simp [next, outcome]
    · intro ifBlank
      have wasRead := quitRead.trans (ifBlank isBlank.1 isBlank.2)
      exact ⟨matched, fun _ => wasRead, fun _ => wasRead, quiet⟩
  · rw [if_neg isBlank] at outcome
    refine iff_of_true ⟨matched, fun isDead => ?_, fun notReading => ?_, quiet⟩
      fun nonempty noWords => absurd ⟨nonempty, noWords⟩ isBlank
    · simp only [next, outcome, getD_some, decide_eq_false_iff_not,
        ne_eq, Classical.not_not] at isDead
      simp only [next, isDead, decide_true, Bool.or_true]
    · exact absurd (by simp [next, outcome]) notReading

theorem answered_next_iff
    {event : PipeEvent} :
    (history.next doubles process event).Answered ↔
      history.KeepsAnswering doubles process event := by
  cases event with
  | endOfFile =>
      refine iff_of_true ⟨answered.messages, answered.alive, ?_, answered.quiet⟩
        trivial
      intro notReading
      apply answered.alive
      by_contra isAlive
      simp only [next, if_pos (Bool.of_not_eq_false isAlive)] at notReading
      exact notReading rfl
  | line text behaviour =>
      by_cases isCommand : (words text).head? = some "task".toList
      · obtain ⟨rest, isCommand'⟩ := head?_eq_some_iff.mp isCommand
        have notBlank : words text ≠ [] := by
          rw [isCommand']
          exact cons_ne_nil _ _
        cases quitRead : history.quitRead with
        | false =>
            rw [answered_command_iff answered isCommand' quitRead]
            simp [KeepsAnswering, isCommand, notBlank, quitRead]
        | true =>
            rw [answered_afterQuit_iff answered isCommand' quitRead]
            simp [KeepsAnswering, isCommand, quitRead]
      · rw [answered_other_iff answered isCommand]
        constructor
        · intro noBlank
          exact ⟨noBlank, fun isTask => absurd isTask isCommand⟩
        · exact And.left

end

theorem answered_start : start.Answered where
  messages := .nil
  alive := fun isDead => nomatch isDead
  serving := fun notReading => absurd rfl notReading
  quiet := rfl

/-- Every command is answered in every state of a run exactly when the lines
keep the process answering. -/
theorem answeredThroughout_iff
    {events : List PipeEvent}
    (run : Run (system doubles process) anyStep events history) :
    (∀ before reached, before <+: events →
      Run (system doubles process) anyStep before reached →
        reached.Answered) ↔
      Run (system doubles process) (KeepsAnswering doubles process) events
        history :=
  run.holdsThroughout_iff answered_start
    fun _ _ answered _ => answered_next_iff answered

end WorkerHistory

end Worker

section Samples

/-- A process without storage -/
def plainProcess : PythonProcess Empty where
  toPythonLibraries := plainLibraries
  storageConf := "null".toList

/-- A task that returns, unless its function raises an exception -/
def calling (callFunction : Option PythonException) : TaskBehaviour where
  importStorage := none
  importModule := none
  callFunction := callFunction
  importClass := none
  deserializeSelf := none
  callMethod := none
  serializeSelf := none

/-- The command of a task without parameters -/
def sampleLine : Text :=
  "task 1 out err false 7 true null METHOD app run 0 1 false null 0 -\n".toList

/-- A task that returns, one that raises `ValueError`, and the quit line -/
def twoTasks : List PipeEvent :=
  [.line sampleLine (calling none),
    .line sampleLine (calling (some .otherException)),
    .line "quit\n".toList (calling none), .endOfFile]

namespace WorkerHistory

theorem answered_twoTasks :
    ((system wholeDoubles plainProcess).after twoTasks).Answered := by
  have run : Run (system wholeDoubles plainProcess)
      (KeepsAnswering wholeDoubles plainProcess) twoTasks
      ((system wholeDoubles plainProcess).after twoTasks) := by
    apply run_of_executable
    refine ⟨⟨rfl, ?_, ?_⟩, ⟨rfl, ?_, ?_⟩, ⟨rfl, ?_, ?_⟩, ⟨rfl, trivial⟩,
      trivial⟩
    · exact fun _ noWords => absurd noWords (by decide)
    · exact fun _ => ⟨_, rfl, fun _ => rfl, _, rfl, .inl rfl⟩
    · exact fun _ noWords => absurd noWords (by decide)
    · exact fun _ => ⟨_, rfl, fun _ => rfl, _, rfl, .inr rfl⟩
    · exact fun _ noWords => absurd noWords (by decide)
    · exact fun isTask => absurd isTask (by decide)
  exact (answeredThroughout_iff (run.mono fun _ _ _ => trivial)).mpr run
    twoTasks _ (prefix_refl _) (run.mono fun _ _ _ => trivial)

/-- The function of a task raises `AttributeError`. -/
def attributeMissing : List PipeEvent :=
  [.line sampleLine (calling (some .attributeError))]

/-- The process has ended without an answer. -/
theorem not_answered_attributeMissing :
    Run (system wholeDoubles plainProcess) anyStep attributeMissing
        ((system wholeDoubles plainProcess).after attributeMissing) ∧
      ¬ ((system wholeDoubles plainProcess).after
        attributeMissing).Answered := by
  constructor
  · apply run_of_executable
    exact ⟨⟨rfl, trivial⟩, trivial⟩
  · intro answered
    exact absurd (answered.serving (by decide)) (by decide)

end WorkerHistory

end Samples

end DistributedRdf.Piper
