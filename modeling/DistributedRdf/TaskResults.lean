import DistributedRdf.ThreadBinding
import DistributedRdf.TransitionSystem

namespace DistributedRdf.Nio

open Execution Function List Option

/-!
# Results of the tasks of a binding

The executor of a job sends its command to the binding and asks for its end.
The reader takes the `endTask` lines from the pipe.  Both work in two sections,
each under a lock of its own, and the sections of the threads may interleave.
-/

abbrev Semaphore := Nat

structure TaskResultReader where
  jobIdsToStatus : JobId → Option Int
  jobIdsToWaiters : JobId → Option Semaphore
  /-- The semaphores that `release` has been called on, in that order -/
  released : List Semaphore

namespace TaskResultReader

variable
  (reader : TaskResultReader)
  (jobId : JobId)
  (waiter : Semaphore)

/-- First section of `askForTaskEnd`: does it return here? -/
def checkStatus :
    Bool × TaskResultReader :=
  match reader.jobIdsToStatus jobId with
  | some _ => (true, { reader with released := reader.released ++ [waiter] })
  | none => (false, reader)

/-- Second section of `askForTaskEnd` -/
def registerWaiter :
    TaskResultReader :=
  { reader with
    jobIdsToWaiters :=
      update reader.jobIdsToWaiters jobId (some waiter) }

/-- First section of `readFromPipe`, for a line `endTask jobId exitValue` -/
def putStatus
    (exitValue : Int) :
    TaskResultReader :=
  { reader with
    jobIdsToStatus :=
      update reader.jobIdsToStatus jobId (some exitValue) }

/-- Second section of `readFromPipe` -/
def releaseWaiter :
    TaskResultReader :=
  match reader.jobIdsToWaiters jobId with
  | some waiter =>
      { reader with
        jobIdsToWaiters := update reader.jobIdsToWaiters jobId none
        released := reader.released ++ [waiter] }
  | none => reader

/-- No value when the missing entry is unboxed -/
def getExitValue :
    Option Int × TaskResultReader :=
  match reader.jobIdsToStatus jobId with
  | some exitValue =>
      (some exitValue,
        { reader with
          jobIdsToStatus := update reader.jobIdsToStatus jobId none })
  | none => (none, reader)

end TaskResultReader

/-- Where `executeExternal` stands with a job. -/
inductive ExecutorPhase where
  | idle
  | sent
  | registering (waiter : Semaphore)
  | waiting (waiter : Semaphore)
  deriving DecidableEq

def ExecutorPhase.semaphore? : ExecutorPhase → Option Semaphore
  | .idle | .sent => none
  | .registering waiter | .waiting waiter => some waiter

/-- What an executor that went on after its semaphore was given. -/
structure TaskAnswer where
  jobId : JobId
  waiter : Semaphore
  /-- The status of the line that the reader has read for the command -/
  line : Option Int
  exitValue : Option Int
  deriving DecidableEq

/-- The executors and the reader of one pipe. -/
structure ResultExchange where
  reader : TaskResultReader
  executor : JobId → ExecutorPhase
  /-- The job whose waiter the reader looks for next -/
  delivering : Option JobId
  /-- The commands that the binding has not answered -/
  unanswered : List JobId
  /-- The line of the command that is sent -/
  line : JobId → Option Int
  semaphores : List Semaphore
  answers : List TaskAnswer

inductive ResultAction where
  | sendTask (jobId : JobId)
  | checkStatus (jobId : JobId) (waiter : Semaphore)
  | registerWaiter (jobId : JobId)
  | putStatus (jobId : JobId) (exitValue : Int)
  | releaseWaiter
  | getExitValue (jobId : JobId)
  deriving DecidableEq

namespace ResultExchange

def start : ResultExchange where
  reader := {
    jobIdsToStatus := fun _ => none
    jobIdsToWaiters := fun _ => none
    released := []
  }
  executor := fun _ => .idle
  delivering := none
  unanswered := []
  line := fun _ => none
  semaphores := []
  answers := []

/-- Each executor runs its sections in order, and so does the reader. -/
def Enabled (exchange : ResultExchange) : ResultAction → Prop
  | .sendTask jobId => exchange.executor jobId = .idle
  | .checkStatus jobId waiter =>
      exchange.executor jobId = .sent ∧ waiter ∉ exchange.semaphores
  | .registerWaiter jobId =>
      ∃ waiter, exchange.executor jobId = .registering waiter
  | .putStatus jobId _ =>
      exchange.delivering = none ∧ jobId ∈ exchange.unanswered
  | .releaseWaiter => exchange.delivering ≠ none
  -- `acquire` returns
  | .getExitValue jobId =>
      ∃ waiter, exchange.executor jobId = .waiting waiter ∧
        waiter ∈ exchange.reader.released

instance (exchange : ResultExchange) (action : ResultAction) :
    Decidable (exchange.Enabled action) :=
  match action with
  | .sendTask jobId =>
      inferInstanceAs (Decidable (exchange.executor jobId = .idle))
  | .checkStatus jobId waiter =>
      inferInstanceAs (Decidable
        (exchange.executor jobId = .sent ∧ waiter ∉ exchange.semaphores))
  | .registerWaiter jobId =>
      match phase : exchange.executor jobId with
      | .registering waiter => isTrue ⟨waiter, phase⟩
      | .idle | .sent | .waiting _ =>
          isFalse fun ⟨_, isRegistering⟩ => by simp [phase] at isRegistering
  | .putStatus jobId _ =>
      inferInstanceAs (Decidable
        (exchange.delivering = none ∧ jobId ∈ exchange.unanswered))
  | .releaseWaiter => inferInstanceAs (Decidable (exchange.delivering ≠ none))
  | .getExitValue jobId =>
      match phase : exchange.executor jobId with
      | .waiting waiter =>
          decidable_of_iff (waiter ∈ exchange.reader.released)
            ⟨fun isReleased => ⟨waiter, phase, isReleased⟩,
              fun ⟨_, isWaiting, isReleased⟩ => by
                cases phase.symm.trans isWaiting
                exact isReleased⟩
      | .idle | .sent | .registering _ =>
          isFalse fun ⟨_, isWaiting, _⟩ => by simp [phase] at isWaiting

def sendTask (exchange : ResultExchange) (jobId : JobId) : ResultExchange :=
  { exchange with
    executor := update exchange.executor jobId .sent
    unanswered := jobId :: exchange.unanswered
    line := update exchange.line jobId none }

def checkStatus
    (exchange : ResultExchange)
    (jobId : JobId)
    (waiter : Semaphore) :
    ResultExchange :=
  let (returned, reader) := exchange.reader.checkStatus jobId waiter
  { exchange with
    reader := reader
    executor :=
      update exchange.executor jobId
        (if returned then .waiting waiter else .registering waiter)
    semaphores := waiter :: exchange.semaphores }

def registerWaiter
    (exchange : ResultExchange)
    (jobId : JobId) :
    ResultExchange :=
  match exchange.executor jobId with
  | .registering waiter =>
      { exchange with
        reader := exchange.reader.registerWaiter jobId waiter
        executor := update exchange.executor jobId (.waiting waiter) }
  | _ => exchange

def putStatus
    (exchange : ResultExchange)
    (jobId : JobId)
    (exitValue : Int) :
    ResultExchange :=
  { exchange with
    reader := exchange.reader.putStatus jobId exitValue
    delivering := some jobId
    unanswered := exchange.unanswered.erase jobId
    line := update exchange.line jobId (some exitValue) }

def releaseWaiter (exchange : ResultExchange) : ResultExchange :=
  match exchange.delivering with
  | some jobId =>
      { exchange with
        reader := exchange.reader.releaseWaiter jobId
        delivering := none }
  | none => exchange

def getExitValue (exchange : ResultExchange) (jobId : JobId) : ResultExchange :=
  match exchange.executor jobId with
  | .waiting waiter =>
      let (exitValue, reader) := exchange.reader.getExitValue jobId
      { exchange with
        reader := reader
        executor := update exchange.executor jobId .idle
        answers :=
          exchange.answers ++ [{
            jobId := jobId
            waiter := waiter
            line := exchange.line jobId
            exitValue := exitValue
          }] }
  | _ => exchange

def next (exchange : ResultExchange) : ResultAction → ResultExchange
  | .sendTask jobId => exchange.sendTask jobId
  | .checkStatus jobId waiter => exchange.checkStatus jobId waiter
  | .registerWaiter jobId => exchange.registerWaiter jobId
  | .putStatus jobId exitValue => exchange.putStatus jobId exitValue
  | .releaseWaiter => exchange.releaseWaiter
  | .getExitValue jobId => exchange.getExitValue jobId

def system : TransitionSystem ResultExchange ResultAction where
  start := start
  Enabled := Enabled
  next := next

instance (exchange : ResultExchange) (action : ResultAction) :
    Decidable (system.Enabled exchange action) :=
  inferInstanceAs (Decidable (exchange.Enabled action))

/-! ## What no lost wake-up means -/

/-- Both sections of the reader are over for the line of this command. -/
def Processed
    (exchange : ResultExchange)
    (jobId : JobId)
    (exitValue : Int) :
    Prop :=
  exchange.executor jobId ≠ .idle ∧
    exchange.line jobId = some exitValue ∧
      exchange.delivering ≠ some jobId

structure NoLostWakeUp (exchange : ResultExchange) : Prop where
  releasedOnce :
    ∀ jobId waiter exitValue,
      exchange.executor jobId = .waiting waiter →
        exchange.Processed jobId exitValue →
          exchange.reader.released.count waiter = 1 ∧
            (exchange.reader.getExitValue jobId).1 = some exitValue
  noWaiter :
    ∀ jobId exitValue, exchange.Processed jobId exitValue →
      exchange.reader.jobIdsToWaiters jobId = none
  noWaiterOver :
    ∀ jobId, exchange.executor jobId = .idle →
      exchange.reader.jobIdsToWaiters jobId = none
  answered :
    ∀ answer, answer ∈ exchange.answers →
      exchange.reader.released.count answer.waiter = 1 ∧
        ∃ exitValue, answer.line = some exitValue ∧
          answer.exitValue = some exitValue

/-- A waiter is not registered after the reader has looked for it, and a job is
not run again while the reader still looks for its waiter. -/
def InTime (exchange : ResultExchange) : ResultAction → Prop
  | .registerWaiter jobId =>
      exchange.reader.jobIdsToStatus jobId = none ∨
        exchange.delivering = some jobId
  | .sendTask jobId => exchange.delivering ≠ some jobId
  | _ => True

instance (exchange : ResultExchange) (action : ResultAction) :
    Decidable (exchange.InTime action) :=
  match action with
  | .registerWaiter _ => inferInstanceAs (Decidable (_ ∨ _))
  | .sendTask _ => inferInstanceAs (Decidable (_ ≠ _))
  | .checkStatus .. | .putStatus .. | .releaseWaiter | .getExitValue .. =>
      isTrue trivial

/-! ## Runs whose steps are in time -/

/-- The waiter of a job against the line of its command. -/
def JobSettled (exchange : ResultExchange) (jobId : JobId) : Prop :=
  let status := exchange.reader.jobIdsToStatus jobId
  let registered := exchange.reader.jobIdsToWaiters jobId
  let line := exchange.line jobId
  match exchange.executor jobId with
  | .idle => status = none ∧ registered = none
  | .sent => status = line ∧ registered = none
  | .registering waiter =>
      status = line ∧ registered = none ∧
        exchange.reader.released.count waiter = 0
  | .waiting waiter =>
      status = line ∧
        (registered = some waiter ∧
            exchange.reader.released.count waiter = 0 ∧
            (line = none ↔ exchange.delivering ≠ some jobId) ∨
          registered = none ∧ line ≠ none ∧
            exchange.reader.released.count waiter = 1)

/-- Commands, semaphores and answers of the executors -/
structure Exchanged (exchange : ResultExchange) : Prop where
  settled : ∀ jobId, exchange.JobSettled jobId
  unanswered :
    ∀ jobId, exchange.unanswered.count jobId =
      if exchange.executor jobId ≠ .idle ∧ exchange.line jobId = none then 1
      else 0
  delivering :
    ∀ jobId, exchange.delivering = some jobId →
      exchange.executor jobId = .idle ∨ exchange.line jobId ≠ none
  created :
    ∀ jobId waiter, (exchange.executor jobId).semaphore? = some waiter →
      waiter ∈ exchange.semaphores ∧
        ∀ answer, answer ∈ exchange.answers → answer.waiter ≠ waiter
  ownSemaphore :
    ∀ jobId other waiter,
      (exchange.executor jobId).semaphore? = some waiter →
        (exchange.executor other).semaphore? = some waiter →
          jobId = other
  releasedCreated :
    ∀ waiter, waiter ∈ exchange.reader.released →
      waiter ∈ exchange.semaphores
  answered :
    ∀ answer, answer ∈ exchange.answers →
      answer.waiter ∈ exchange.semaphores ∧
        exchange.reader.released.count answer.waiter = 1 ∧
          ∃ exitValue, answer.line = some exitValue ∧
            answer.exitValue = some exitValue

theorem JobSettled.congr
    {exchange other : ResultExchange}
    {jobId : JobId}
    (settled : exchange.JobSettled jobId)
    (executor : other.executor jobId = exchange.executor jobId)
    (status :
      other.reader.jobIdsToStatus jobId =
        exchange.reader.jobIdsToStatus jobId)
    (registered :
      other.reader.jobIdsToWaiters jobId =
        exchange.reader.jobIdsToWaiters jobId)
    (line : other.line jobId = exchange.line jobId)
    (released :
      ∀ waiter, (exchange.executor jobId).semaphore? = some waiter →
        other.reader.released.count waiter =
          exchange.reader.released.count waiter)
    (delivering :
      other.delivering = some jobId ↔ exchange.delivering = some jobId) :
    other.JobSettled jobId := by
  unfold JobSettled at settled ⊢
  rw [executor, status, registered, line]
  cases phase : exchange.executor jobId with
  | idle | sent =>
      rw [phase] at settled
      exact settled
  | registering waiter =>
      rw [phase] at settled released
      simp only [released waiter rfl]
      exact settled
  | waiting waiter =>
      rw [phase] at settled released
      simp only [released waiter rfl, ne_eq, delivering]
      exact settled

theorem exchanged_start : start.Exchanged where
  settled := fun _ => ⟨rfl, rfl⟩
  unanswered := fun _ => rfl
  delivering := by
    intro jobId isDelivering
    exact absurd isDelivering (by simp [start])
  created := by
    intro jobId waiter held
    exact absurd held (by simp [start, ExecutorPhase.semaphore?])
  ownSemaphore := by
    intro jobId other waiter held
    exact absurd held (by simp [start, ExecutorPhase.semaphore?])
  releasedCreated := by
    intro waiter isReleased
    exact absurd isReleased not_mem_nil
  answered := by
    intro answer isAnswer
    exact absurd isAnswer not_mem_nil

variable
  {exchange : ResultExchange}
  {jobId : JobId}

theorem Exchanged.sendTask
    (exchanged : exchange.Exchanged)
    (isIdle : exchange.executor jobId = .idle)
    (notDelivering : exchange.delivering ≠ some jobId) :
    (exchange.sendTask jobId).Exchanged where
  settled := by
    intro other
    by_cases same : other = jobId
    · subst same
      have before := exchanged.settled other
      simp only [JobSettled, isIdle] at before
      simp [JobSettled, ResultExchange.sendTask, before]
    · apply (exchanged.settled other).congr <;>
        simp [ResultExchange.sendTask, update_of_ne same]
  unanswered := by
    intro other
    have before := exchanged.unanswered other
    by_cases same : other = jobId
    · subst same
      simp only [isIdle, ne_eq, not_true_eq_false, false_and, if_false] at before
      simp [ResultExchange.sendTask, before]
    · simp only [ResultExchange.sendTask, update_of_ne same,
        count_cons_of_ne (Ne.symm same)]
      exact before
  delivering := by
    intro other isDelivering
    have different : other ≠ jobId := fun same =>
      notDelivering (same ▸ isDelivering)
    simp only [ResultExchange.sendTask, update_of_ne different]
    exact exchanged.delivering other isDelivering
  created := by
    intro other waiter held
    by_cases same : other = jobId
    · subst same
      exact absurd held (by
        simp [ResultExchange.sendTask, ExecutorPhase.semaphore?])
    · simp only [ResultExchange.sendTask, update_of_ne same] at held
      exact exchanged.created other waiter held
  ownSemaphore := by
    intro first second waiter firstHolds secondHolds
    have holds : ∀ other, ((exchange.sendTask jobId).executor other).semaphore?
        = some waiter → (exchange.executor other).semaphore? = some waiter := by
      intro other held
      by_cases same : other = jobId
      · subst same
        exact absurd held (by
          simp [ResultExchange.sendTask, ExecutorPhase.semaphore?])
      · simpa only [ResultExchange.sendTask, update_of_ne same]
          using held
    exact exchanged.ownSemaphore first second waiter
      (holds first firstHolds) (holds second secondHolds)
  releasedCreated := exchanged.releasedCreated
  answered := exchanged.answered

variable
  {phase : ExecutorPhase}
  {waiter : Semaphore}

/-- The semaphores that are held after one executor has gone on -/
theorem held_update
    {executor : JobId → ExecutorPhase}
    {jobId other : JobId}
    (held :
      (update executor jobId phase other).semaphore? = some waiter) :
    other = jobId ∧ phase.semaphore? = some waiter ∨
      other ≠ jobId ∧ (executor other).semaphore? = some waiter := by
  by_cases same : other = jobId
  · subst same
    rw [update_self] at held
    exact .inl ⟨rfl, held⟩
  · rw [update_of_ne same] at held
    exact .inr ⟨same, held⟩

variable {released : List Semaphore}

theorem count_released_other
    {waiter other : Semaphore}
    (different : other ≠ waiter) :
    (released ++ [waiter]).count other = released.count other := by
  rw [count_append, count_singleton]
  simp [Ne.symm different]

section

variable (exchanged : exchange.Exchanged)

include exchanged

/-- The executor of a job goes on with a new semaphore, which may be released. -/
theorem Exchanged.takeSemaphore
    {reached : ResultExchange}
    (isSent : exchange.executor jobId = .sent)
    (fresh : waiter ∉ exchange.semaphores)
    (active : phase ≠ .idle)
    (holds : phase.semaphore? = some waiter)
    (releases :
      released = exchange.reader.released ∨
        released = exchange.reader.released ++ [waiter])
    (isReached :
      reached = { exchange with
        reader := { exchange.reader with released := released }
        executor := update exchange.executor jobId phase
        semaphores := waiter :: exchange.semaphores })
    (settled : reached.JobSettled jobId) :
    reached.Exchanged := by
  have heldElsewhere : ∀ other held,
      (exchange.executor other).semaphore? = some held → held ≠ waiter :=
    fun other held holds same =>
      fresh (same ▸ (exchanged.created other held holds).1)
  have answeredElsewhere : ∀ answer, answer ∈ exchange.answers →
      answer.waiter ≠ waiter := fun answer isAnswer same =>
    fresh (same ▸ (exchanged.answered answer isAnswer).1)
  have others : ∀ other, other ≠ waiter →
      released.count other = exchange.reader.released.count other := by
    intro other different
    rcases releases with rfl | rfl
    · rfl
    · exact count_released_other different
  subst isReached
  refine ⟨?settled, ?unanswered, ?delivering, ?created, ?ownSemaphore,
    ?releasedCreated, ?answered⟩
  case settled =>
    intro other
    by_cases same : other = jobId
    · exact same ▸ settled
    · refine (exchanged.settled other).congr
        (update_of_ne same ..) rfl rfl rfl ?_ Iff.rfl
      intro held holdsHeld
      exact others held (heldElsewhere other held holdsHeld)
  case unanswered =>
    intro other
    by_cases same : other = jobId
    · subst same
      simpa [isSent, active] using exchanged.unanswered other
    · simpa only [update_of_ne same] using exchanged.unanswered other
  case delivering =>
    intro other isDelivering
    by_cases same : other = jobId
    · subst same
      rcases exchanged.delivering other isDelivering with isIdle | read
      · exact absurd (isIdle.symm.trans isSent) (by simp)
      · exact .inr read
    · simpa only [update_of_ne same] using
        exchanged.delivering other isDelivering
  case created =>
    intro other held holdsHeld
    rcases held_update holdsHeld with ⟨-, isWaiter⟩ | ⟨-, holdsBefore⟩
    · obtain rfl := some.inj (holds.symm.trans isWaiter)
      exact ⟨mem_cons_self, answeredElsewhere⟩
    · obtain ⟨known, noAnswer⟩ := exchanged.created other held holdsBefore
      exact ⟨mem_cons_of_mem _ known, noAnswer⟩
  case ownSemaphore =>
    intro first second held firstHolds secondHolds
    rcases held_update firstHolds with ⟨rfl, isWaiter⟩ | ⟨-, firstBefore⟩ <;>
    rcases held_update secondHolds with ⟨rfl, same⟩ | ⟨-, secondBefore⟩
    · rfl
    · obtain rfl := some.inj (holds.symm.trans isWaiter)
      exact absurd rfl (heldElsewhere second waiter secondBefore)
    · obtain rfl := some.inj (holds.symm.trans same)
      exact absurd rfl (heldElsewhere first waiter firstBefore)
    · exact exchanged.ownSemaphore first second held firstBefore secondBefore
  case releasedCreated =>
    intro other isReleased
    rcases releases with rfl | rfl
    · exact mem_cons_of_mem _ (exchanged.releasedCreated other isReleased)
    · rcases mem_append.mp isReleased with isOld | isNew
      · exact mem_cons_of_mem _ (exchanged.releasedCreated other isOld)
      · exact mem_singleton.mp isNew ▸ mem_cons_self
  case answered =>
    intro answer isAnswer
    obtain ⟨known, once, values⟩ := exchanged.answered answer isAnswer
    refine ⟨mem_cons_of_mem _ known, ?_, values⟩
    exact (others answer.waiter (answeredElsewhere answer isAnswer)).trans once

theorem Exchanged.checkStatus
    (isSent : exchange.executor jobId = .sent)
    (fresh : waiter ∉ exchange.semaphores) :
    (exchange.checkStatus jobId waiter).Exchanged := by
  have before := exchanged.settled jobId
  simp only [JobSettled, isSent] at before
  obtain ⟨isLine, unregistered⟩ := before
  have notReleased : exchange.reader.released.count waiter = 0 :=
    count_eq_zero.mpr fun isReleased =>
      fresh (exchanged.releasedCreated waiter isReleased)
  unfold ResultExchange.checkStatus TaskResultReader.checkStatus
  cases status : exchange.reader.jobIdsToStatus jobId with
  | none =>
      have active : ExecutorPhase.registering waiter ≠ .idle := by simp
      apply exchanged.takeSemaphore isSent fresh active rfl (.inl rfl) rfl
      simp only [JobSettled, update_self]
      exact ⟨isLine, unregistered, notReleased⟩
  | some exitValue =>
      have active : ExecutorPhase.waiting waiter ≠ .idle := by simp
      apply exchanged.takeSemaphore isSent fresh active rfl (.inr rfl) rfl
      simp only [JobSettled, update_self]
      refine ⟨isLine, .inr ⟨unregistered, ?_, ?_⟩⟩
      · rw [← isLine, status]
        simp
      · rw [count_append, notReleased, count_singleton_self]

theorem Exchanged.registerWaiter
    (isRegistering : exchange.executor jobId = .registering waiter)
    (inTime :
      exchange.reader.jobIdsToStatus jobId = none ∨
        exchange.delivering = some jobId) :
    (exchange.registerWaiter jobId).Exchanged := by
  have before := exchanged.settled jobId
  simp only [JobSettled, isRegistering] at before
  obtain ⟨isLine, unregistered, notReleased⟩ := before
  have sameHeld : ∀ other,
      (update exchange.executor jobId (.waiting waiter)
        other).semaphore? = (exchange.executor other).semaphore? := by
    intro other
    by_cases same : other = jobId
    · subst same
      rw [update_self, isRegistering]
      rfl
    · rw [update_of_ne same]
  have sameIdle : ∀ other,
      update exchange.executor jobId (.waiting waiter) other = .idle ↔
        exchange.executor other = .idle := by
    intro other
    by_cases same : other = jobId
    · subst same
      simp [isRegistering]
    · rw [update_of_ne same]
  unfold ResultExchange.registerWaiter
  rw [isRegistering]
  refine ⟨?settled, ?unanswered, ?delivering, ?created, ?ownSemaphore,
    exchanged.releasedCreated, exchanged.answered⟩
  case settled =>
    intro other
    by_cases same : other = jobId
    · subst same
      simp only [JobSettled, update_self,
        TaskResultReader.registerWaiter]
      refine ⟨isLine, .inl ⟨trivial, notReleased, ?_⟩⟩
      constructor
      · intro unread isDelivering
        rcases exchanged.delivering other isDelivering with isIdle | read
        · exact absurd (isIdle.symm.trans isRegistering) (by simp)
        · exact read unread
      · intro notDelivering
        exact isLine ▸ inTime.resolve_right notDelivering
    · refine (exchanged.settled other).congr
        (update_of_ne same ..) rfl ?_ rfl (fun _ _ => rfl) Iff.rfl
      exact update_of_ne same ..
  case unanswered =>
    intro other
    simp only [ne_eq, sameIdle other]
    exact exchanged.unanswered other
  case delivering =>
    intro other isDelivering
    simp only [sameIdle other]
    exact exchanged.delivering other isDelivering
  case created =>
    intro other held holds
    exact exchanged.created other held ((sameHeld other).symm.trans holds)
  case ownSemaphore =>
    intro first second held firstHolds secondHolds
    exact exchanged.ownSemaphore first second held
      ((sameHeld first).symm.trans firstHolds)
      ((sameHeld second).symm.trans secondHolds)

/-- The command of an unanswered line waits for it. -/
theorem Exchanged.awaiting
    (isUnanswered : jobId ∈ exchange.unanswered) :
    exchange.executor jobId ≠ .idle ∧ exchange.line jobId = none := by
  have positive := count_pos_iff.mpr isUnanswered
  rw [exchanged.unanswered jobId] at positive
  by_contra notAwaiting
  rw [if_neg notAwaiting] at positive
  exact absurd positive (Nat.lt_irrefl 0)

theorem Exchanged.putStatus
    (exitValue : Int)
    (free : exchange.delivering = none)
    (isUnanswered : jobId ∈ exchange.unanswered) :
    (exchange.putStatus jobId exitValue).Exchanged where
  settled := by
    obtain ⟨active, unread⟩ := exchanged.awaiting isUnanswered
    intro other
    by_cases same : other = jobId
    · subst same
      have before := exchanged.settled other
      simp only [JobSettled, unread] at before
      simp only [JobSettled, ResultExchange.putStatus,
        TaskResultReader.putStatus, update_self]
      cases phase : exchange.executor other with
      | idle => exact absurd phase active
      | sent | registering _ =>
          rw [phase] at before
          exact ⟨trivial, before.2⟩
      | waiting waiter =>
          rw [phase] at before
          obtain ⟨-, ⟨registered, notReleased, -⟩ | ⟨-, read, -⟩⟩ := before
          · exact ⟨trivial, .inl ⟨registered, notReleased, by simp⟩⟩
          · exact absurd rfl read
    · refine (exchanged.settled other).congr
        rfl ?_ rfl ?_ (fun _ _ => rfl) ?_
      · exact update_of_ne same ..
      · exact update_of_ne same ..
      · simp [ResultExchange.putStatus, free, Ne.symm same]
  unanswered := by
    have awaiting := exchanged.awaiting isUnanswered
    intro other
    have before := exchanged.unanswered other
    by_cases same : other = jobId
    · subst same
      rw [if_pos awaiting] at before
      simp only [ResultExchange.putStatus, count_erase_self, before,
        update_self]
      simp
    · simp only [ResultExchange.putStatus, update_of_ne same,
        count_erase_of_ne same]
      exact before
  delivering := by
    intro other isDelivering
    obtain rfl := some.inj isDelivering
    right
    simp [ResultExchange.putStatus]
  created := exchanged.created
  ownSemaphore := exchanged.ownSemaphore
  releasedCreated := exchanged.releasedCreated
  answered := exchanged.answered

/-- A registered waiter is the semaphore of the executor of the job. -/
theorem Exchanged.registered
    (isRegistered : exchange.reader.jobIdsToWaiters jobId = some waiter) :
    exchange.executor jobId = .waiting waiter ∧
      exchange.reader.jobIdsToStatus jobId = exchange.line jobId ∧
        exchange.reader.released.count waiter = 0 ∧
          (exchange.line jobId = none ↔
            exchange.delivering ≠ some jobId) := by
  have settled := exchanged.settled jobId
  simp only [JobSettled, isRegistered] at settled
  cases phase : exchange.executor jobId with
  | idle | sent =>
      rw [phase] at settled
      exact absurd settled.2 (by simp)
  | registering other =>
      rw [phase] at settled
      exact absurd settled.2.1 (by simp)
  | waiting other =>
      rw [phase] at settled
      obtain ⟨isLine, ⟨same, notReleased, unread⟩ | ⟨absent, -⟩⟩ := settled
      · obtain rfl := some.inj same
        exact ⟨rfl, isLine, notReleased, unread⟩
      · exact absurd absent (by simp)

theorem Exchanged.releaseWaiter
    (isDelivering : exchange.delivering = some jobId) :
    exchange.releaseWaiter.Exchanged := by
  unfold ResultExchange.releaseWaiter TaskResultReader.releaseWaiter
  rw [isDelivering]
  dsimp only
  cases registered : exchange.reader.jobIdsToWaiters jobId with
  | none =>
      refine ⟨?settled, exchanged.unanswered, by simp, exchanged.created,
        exchanged.ownSemaphore, exchanged.releasedCreated, exchanged.answered⟩
      case settled =>
        intro other
        by_cases same : other = jobId
        · subst same
          have before := exchanged.settled other
          simp only [JobSettled, registered] at before ⊢
          cases phase : exchange.executor other with
          | idle | sent | registering _ => simpa only [phase] using before
          | waiting waiter =>
              rw [phase] at before
              obtain ⟨isLine, ⟨absent, -⟩ | released⟩ := before
              · exact absurd absent (by simp)
              · exact ⟨isLine, .inr released⟩
        · refine (exchanged.settled other).congr rfl rfl rfl rfl
            (fun _ _ => rfl) ?_
          simp [isDelivering, Ne.symm same]
  | some waiter =>
      obtain ⟨isWaiting, isLine, notReleased, unread⟩ :=
        exchanged.registered registered
      have holds : (exchange.executor jobId).semaphore? = some waiter := by
        rw [isWaiting]
        rfl
      refine ⟨?settled, exchanged.unanswered, by simp, exchanged.created,
        exchanged.ownSemaphore, ?releasedCreated, ?answered⟩
      case settled =>
        intro other
        by_cases same : other = jobId
        · subst same
          simp only [JobSettled, isWaiting, update_self]
          refine ⟨isLine, .inr ⟨trivial, ?_, ?_⟩⟩
          · exact fun isUnread => unread.mp isUnread isDelivering
          · rw [count_append, notReleased, count_singleton_self]
        · refine (exchanged.settled other).congr rfl rfl
            (update_of_ne same ..) rfl ?_ ?_
          · intro held holdsHeld
            apply count_released_other
            rintro rfl
            exact same (exchanged.ownSemaphore other jobId held holdsHeld holds)
          · simp [isDelivering, Ne.symm same]
      case releasedCreated =>
        intro other isReleased
        rcases mem_append.mp isReleased with isOld | isNew
        · exact exchanged.releasedCreated other isOld
        · exact mem_singleton.mp isNew ▸
            (exchanged.created jobId waiter holds).1
      case answered =>
        intro answer isAnswer
        obtain ⟨known, once, values⟩ := exchanged.answered answer isAnswer
        refine ⟨known, ?_, values⟩
        exact (count_released_other ((exchanged.created jobId waiter holds).2
          answer isAnswer)).trans once

theorem Exchanged.getExitValue
    (isWaiting : exchange.executor jobId = .waiting waiter)
    (isReleased : waiter ∈ exchange.reader.released) :
    (exchange.getExitValue jobId).Exchanged := by
  have before := exchanged.settled jobId
  have positive := count_pos_iff.mpr isReleased
  simp only [JobSettled, isWaiting] at before
  obtain ⟨isLine, ⟨-, notReleased, -⟩ | ⟨unregistered, read, once⟩⟩ := before
  · exact absurd notReleased (Nat.ne_of_gt positive)
  obtain ⟨exitValue, isValue⟩ := ne_none_iff_exists'.mp read
  have holds : (exchange.executor jobId).semaphore? = some waiter := by
    rw [isWaiting]
    rfl
  have heldBefore : ∀ other held,
      (update exchange.executor jobId .idle other).semaphore? =
          some held →
        other ≠ jobId ∧ (exchange.executor other).semaphore? = some held := by
    intro other held holdsHeld
    rcases held_update holdsHeld with ⟨-, isNone⟩ | elsewhere
    · exact absurd isNone (by simp [ExecutorPhase.semaphore?])
    · exact elsewhere
  unfold ResultExchange.getExitValue TaskResultReader.getExitValue
  rw [isWaiting, isLine, isValue]
  refine ⟨?settled, ?unanswered, ?delivering, ?created, ?ownSemaphore,
    exchanged.releasedCreated, ?answered⟩
  case settled =>
    intro other
    by_cases same : other = jobId
    · subst same
      simp only [JobSettled, update_self]
      exact ⟨trivial, unregistered⟩
    · exact (exchanged.settled other).congr
        (update_of_ne same ..) (update_of_ne same ..) rfl
        rfl (fun _ _ => rfl) Iff.rfl
  case unanswered =>
    intro other
    have unansweredBefore := exchanged.unanswered other
    by_cases same : other = jobId
    · subst same
      rw [if_neg fun awaiting => read awaiting.2] at unansweredBefore
      simpa using unansweredBefore
    · simpa only [update_of_ne same] using unansweredBefore
  case delivering =>
    intro other isDelivering
    by_cases same : other = jobId
    · subst same
      simp
    · simpa only [update_of_ne same] using
        exchanged.delivering other isDelivering
  case created =>
    intro other held holdsHeld
    obtain ⟨different, holdsBefore⟩ := heldBefore other held holdsHeld
    obtain ⟨known, noAnswer⟩ := exchanged.created other held holdsBefore
    refine ⟨known, ?_⟩
    intro answer isAnswer
    rcases mem_append.mp isAnswer with isOld | isNew
    · exact noAnswer answer isOld
    · rw [mem_singleton.mp isNew]
      rintro rfl
      exact different (exchanged.ownSemaphore other jobId _ holdsBefore holds)
  case ownSemaphore =>
    intro first second held firstHolds secondHolds
    exact exchanged.ownSemaphore first second held
      (heldBefore first held firstHolds).2 (heldBefore second held secondHolds).2
  case answered =>
    intro answer isAnswer
    rcases mem_append.mp isAnswer with isOld | isNew
    · exact exchanged.answered answer isOld
    · rw [mem_singleton.mp isNew]
      exact ⟨(exchanged.created jobId waiter holds).1, once, exitValue,
        rfl, rfl⟩

theorem Exchanged.next
    {action : ResultAction}
    (enabled : exchange.Enabled action)
    (inTime : exchange.InTime action) :
    (exchange.next action).Exchanged := by
  cases action with
  | sendTask jobId => exact exchanged.sendTask enabled inTime
  | checkStatus jobId waiter => exact exchanged.checkStatus enabled.1 enabled.2
  | registerWaiter jobId =>
      obtain ⟨waiter, isRegistering⟩ := enabled
      exact exchanged.registerWaiter isRegistering inTime
  | putStatus jobId exitValue =>
      exact exchanged.putStatus exitValue enabled.1 enabled.2
  | releaseWaiter =>
      obtain ⟨jobId, isDelivering⟩ := ne_none_iff_exists'.mp enabled
      exact exchanged.releaseWaiter isDelivering
  | getExitValue jobId =>
      obtain ⟨waiter, isWaiting, isReleased⟩ := enabled
      exact exchanged.getExitValue isWaiting isReleased

theorem Exchanged.unregistered
    {exitValue : Int}
    (processed : exchange.Processed jobId exitValue) :
    exchange.reader.jobIdsToWaiters jobId = none := by
  obtain ⟨-, isLine, notDelivering⟩ := processed
  cases registered : exchange.reader.jobIdsToWaiters jobId with
  | none => rfl
  | some waiter =>
      obtain ⟨-, -, -, unread⟩ := exchanged.registered registered
      exact absurd (isLine.symm.trans (unread.mpr notDelivering)) (by simp)

theorem Exchanged.noLostWakeUp :
    exchange.NoLostWakeUp where
  releasedOnce := by
    intro jobId waiter exitValue isWaiting processed
    have unregistered := exchanged.unregistered processed
    have settled := exchanged.settled jobId
    simp only [JobSettled, isWaiting, unregistered, processed.2.1] at settled
    obtain ⟨isLine, ⟨absent, -⟩ | ⟨-, -, once⟩⟩ := settled
    · exact absurd absent (by simp)
    · refine ⟨once, ?_⟩
      simp only [TaskResultReader.getExitValue, isLine]
  noWaiter := fun _ _ processed => exchanged.unregistered processed
  noWaiterOver := by
    intro jobId isIdle
    have settled := exchanged.settled jobId
    simp only [JobSettled, isIdle] at settled
    exact settled.2
  answered := fun answer isAnswer => (exchanged.answered answer isAnswer).2

end

/-- Waiters that are registered in time are woken up once. -/
theorem noLostWakeUp_of_inTime
    {actions : List ResultAction}
    (run : Run system InTime actions exchange) :
    exchange.NoLostWakeUp := by
  have exchanged : exchange.Exchanged :=
    run.invariant exchanged_start fun _ _ before enabled inTime =>
      before.next enabled inTime
  exact exchanged.noLostWakeUp

/-- Two jobs of which one waits before its line is read and the other after. -/
def timelySchedule : List ResultAction :=
  [.sendTask 1, .checkStatus 1 0, .sendTask 2, .registerWaiter 1,
    .putStatus 1 0, .releaseWaiter, .putStatus 2 1, .checkStatus 2 1,
    .releaseWaiter, .getExitValue 2]

theorem noLostWakeUp_timelySchedule :
    (system.after timelySchedule).NoLostWakeUp := by
  apply @noLostWakeUp_of_inTime _ timelySchedule
  apply run_of_executable
  decide

/-- The line is read between the two sections of the executor. -/
def lateSchedule : List ResultAction :=
  [.sendTask 1, .checkStatus 1 0, .putStatus 1 0, .releaseWaiter,
    .registerWaiter 1]

/-- A waiter that is registered late stays registered and is not released. -/
theorem not_noLostWakeUp_lateSchedule :
    Run system anyStep lateSchedule (system.after lateSchedule) ∧
      ¬ (system.after lateSchedule).NoLostWakeUp := by
  constructor
  · apply run_of_executable
    decide
  · intro noneLost
    have processed : (system.after lateSchedule).Processed 1 0 := by
      refine ⟨?_, rfl, ?_⟩
      · decide
      · decide
    exact absurd (noneLost.noWaiter 1 0 processed) (by decide)

end ResultExchange

end DistributedRdf.Nio
