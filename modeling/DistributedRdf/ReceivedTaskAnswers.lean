import DistributedRdf.ReceivedTasks

namespace DistributedRdf.Nio

open Execution TransferringTask ReceivingStep List CheckResult NIOParam
open NIOWorker

/-!
# The answer to a received task

The counter is the number of parameters that are not checked yet and of requests
that are not settled.  What has been checked stays, or has been requested.
-/

namespace CheckResult

variable
  {result : CheckResult}
  {store : List Stored}
  {stored : Stored}

theorem mem_apply_of_mem
    (isStored : stored ∈ store)
    (notRemoved : stored ∉ result.removed) :
    stored ∈ result.apply store :=
  mem_append_left _
    (mem_filter.mpr ⟨isStored, decide_eq_true notRemoved⟩)

theorem mem_apply_of_added
    (isAdded : stored ∈ result.added) :
    stored ∈ result.apply store :=
  mem_append_right _ isAdded

end CheckResult

namespace NIOWorker

variable
  {worker : NIOWorker}
  {answers : CheckAnswers}
  {store : List Stored}
  {param : NIOParam}
  {data : Data}

/-- An object that is not requested has been read from a file. -/
theorem cached_of_askForObjectInHost
    (notAsked :
      (worker.askForObjectInHost answers param data).askTransfer = false) :
    .cached param.value ∈
      (worker.askForObjectInHost answers param data).added := by
  cases isLocation : data.getURIinHost worker.host with
  | none =>
      simp only [askForObjectInHost, isLocation] at notAsked
      cases notAsked
  | some loc =>
      simp only [askForObjectInHost, isLocation] at notAsked ⊢
      cases isRead : answers.deserializes param.value <;> grind

theorem cached_of_askForObject
    (notAsked :
      (worker.askForObject answers store param data).askTransfer = false) :
    .cached param.value ∈
      (worker.askForObject answers store param data).apply store := by
  unfold askForObject at notAsked ⊢
  by_cases isCached : .cached param.value ∈ store
  · rw [if_pos isCached]
    exact mem_apply_of_mem isCached not_mem_nil
  · rw [if_neg isCached] at notAsked ⊢
    refine mem_apply_of_added ?_
    cases isSource :
        data.sources.find? fun loc => .cached loc.path ∈ store with
    | none =>
        rw [isSource] at notAsked
        exact cached_of_askForObjectInHost notAsked
    | some loc =>
        rw [isSource] at notAsked
        dsimp only at notAsked ⊢
        cases isPreserved : param.preserveSourceData with
        | false => exact mem_singleton.mpr rfl
        | true =>
            cases isRead : answers.deserializes loc.path with
            | true => exact mem_singleton.mpr rfl
            | false =>
                rw [isPreserved, isRead] at notAsked
                exact cached_of_askForObjectInHost notAsked

theorem file_of_askForFile
    (notAsked :
      (worker.askForFile answers store param data).askTransfer = false) :
    .file param.value ∈
      (worker.askForFile answers store param data).apply store := by
  unfold askForFile at notAsked ⊢
  by_cases isThere : .file param.value ∈ store
  · rw [if_pos isThere]
    exact mem_apply_of_mem isThere not_mem_nil
  · rw [if_neg isThere] at notAsked ⊢
    refine mem_apply_of_added ?_
    cases isLocation : data.getURIinHost worker.host with
    | none =>
        rw [isLocation] at notAsked
        cases notAsked
    | some loc =>
        rw [isLocation] at notAsked
        grind

end NIOWorker

namespace TransferringTask

variable
  {worker : NIOWorker}
  {params : List NIOParam}
  {tt : TransferringTask}
  {answers : CheckAnswers}

/-- What is checked has been found, if its data are not requested. -/
theorem isPresent_of_check
    {param : NIOParam}
    (counted : Counted param)
    (notAsked : (tt.check worker answers param).askTransfer = false) :
    param.IsPresent ((tt.check worker answers param).apply tt.store) := by
  cases isData : param.data with
  | none => exact .inl isData
  | some data =>
      refine .inr ?_
      rcases counted with noData | isObject | isFile
      · cases isData.symm.trans noData
      · have notFile : param.type ≠ .FILE_T := by
          rw [isObject]
          decide
        simp only [check, isData, isObject] at notAsked ⊢
        rw [stored, if_neg notFile]
        exact cached_of_askForObject notAsked
      · simp only [check, isData, isFile] at notAsked ⊢
        rw [stored, if_pos isFile]
        exact file_of_askForFile notAsked

/-- A check that takes nothing leaves what the parameters before need. -/
theorem TakesNothing.isPresent
    {result : CheckResult}
    (takesNothing : TakesNothing tt.checked result)
    {param : NIOParam}
    (isChecked : param ∈ tt.checked)
    (isPresent : param.IsPresent tt.store) :
    param.IsPresent (result.apply tt.store) := by
  rcases isPresent with noData | isStored
  · exact .inl noData
  · by_cases noData : param.data = none
    · exact .inl noData
    · refine .inr (mem_apply_of_mem isStored fun isRemoved => ?_)
      exact takesNothing param.stored isRemoved param isChecked noData rfl

variable
  (params)
  (tt)

/-- What the counter counts, and what has been found so far -/
structure Accounted : Prop where
  split : tt.checked ++ tt.unchecked = params
  count : tt.params = tt.unchecked.length + tt.requests.length
  error : tt.error = true ↔ tt.unavailable ≠ []
  returned : tt.hasReturned = true → tt.unchecked = []
  present :
    tt.unavailable = [] →
      ∀ param ∈ tt.checked, param ∈ tt.requests ∨ param.IsPresent tt.store

/-- An answer that is expected of a task whose requests are settled -/
def RightAnswer : JobAnswer → Prop
  | .executeTask store =>
      (∀ param ∈ params, param.IsPresent store) ∧ tt.unavailable = []
  | .sendTaskDone => tt.unavailable ≠ []

inductive Progress : Prop where
  | unanswered
      (noAnswer : tt.answers = [])
      (running : tt.hasReturned = true → tt.params ≠ 0)
  | answered
      (answer : JobAnswer)
      (isAnswer : tt.answers = [answer])
      (allCounted : tt.params = 0)
      (isRight : RightAnswer params tt answer)

variable
  {params}
  {tt}

/-- When nothing is left to count, everything has been found or is missing. -/
theorem Accounted.isPresent
    (accounted : tt.Accounted params)
    (allCounted : tt.params = 0)
    (available : tt.unavailable = []) :
    ∀ param ∈ params, param.IsPresent tt.store := by
  have count := accounted.count
  rw [allCounted] at count
  have noRequest : tt.requests = [] :=
    length_eq_zero_iff.mp (by omega)
  have allChecked : tt.unchecked = [] :=
    length_eq_zero_iff.mp (by omega)
  have isChecked : tt.checked = params := by
    rw [← accounted.split, allChecked, append_nil]
  intro param isParam
  rw [← isChecked] at isParam
  rcases accounted.present available param isParam with isRequested | isPresent
  · rw [noRequest] at isRequested
    exact absurd isRequested not_mem_nil
  · exact isPresent

/-!
## The loop over the parameters
-/

variable {rest : List NIOParam}

theorem checkParameter_withoutData
    {param : NIOParam}
    (isNext : tt.unchecked = param :: rest)
    (noData : param.data = none) :
    tt.checkParameter worker answers =
      { tt with
        checked := tt.checked ++ [param]
        unchecked := rest }.decreaseParams := by
  simp only [checkParameter, isNext, noData]

theorem checkParameter_withData
    {param : NIOParam}
    (isNext : tt.unchecked = param :: rest)
    (someData : param.data ≠ none)
    (counted : Counted param) :
    tt.checkParameter worker answers =
      { tt with
        checked := tt.checked ++ [param]
        unchecked := rest }.askForTransfer param
          (tt.check worker answers param) := by
  obtain ⟨data, isData⟩ := Option.ne_none_iff_exists'.mp someData
  rcases counted with noData | isObject | isFile
  · exact absurd noData someData
  · simp only [checkParameter, isNext, isData, isObject]
  · simp only [checkParameter, isNext, isData, isFile]

/-- No task is answered by the loop. -/
theorem checkParameter_answers
    (worker : NIOWorker)
    (answers : CheckAnswers)
    (tt : TransferringTask) :
    (tt.checkParameter worker answers).answers = tt.answers ∧
      (tt.checkParameter worker answers).hasReturned = tt.hasReturned := by
  simp only [checkParameter, askForTransfer]
  repeat' split
  all_goals exact ⟨rfl, rfl⟩

section

variable (accounted : tt.Accounted params)

include accounted

theorem Accounted.checkParameter
    {answers : CheckAnswers}
    {param : NIOParam}
    (isNext : tt.unchecked = param :: rest)
    (counted : Counted param)
    (takesNothing : TakesNothing tt.checked (tt.check worker answers param)) :
    (tt.checkParameter worker answers).Accounted params := by
  have split : (tt.checked ++ [param]) ++ rest = params := by
    rw [← accounted.split, isNext, append_assoc, singleton_append]
  have count := accounted.count
  rw [isNext, length_cons] at count
  push_cast at count
  have isLess : tt.params - 1 = (rest.length + tt.requests.length : Int) := by
    omega
  have notReturned : tt.hasReturned ≠ true := fun returned =>
    cons_ne_nil param rest (isNext.symm.trans (accounted.returned returned))
  by_cases noData : param.data = none
  case pos =>
    rw [checkParameter_withoutData isNext noData]
    refine ⟨split, ?_, accounted.error, fun returned =>
      absurd returned notReturned, ?_⟩
    · exact isLess
    · intro available other isChecked
      rcases mem_append.mp isChecked with isChecked | isParam
      · exact accounted.present available other isChecked
      · rw [mem_singleton.mp isParam]
        exact .inr (.inl noData)
  case neg =>
    have earlier :
        ∀ other ∈ tt.checked,
          other.IsPresent tt.store →
            other.IsPresent
              ((tt.check worker answers param).apply tt.store) :=
      fun other isChecked isPresent =>
        TakesNothing.isPresent takesNothing isChecked isPresent
    rw [checkParameter_withData isNext noData counted, askForTransfer]
    cases isAsked : (tt.check worker answers param).askTransfer with
    | true =>
        rw [if_pos rfl]
        refine ⟨split, ?_, accounted.error, fun returned =>
          absurd returned notReturned, ?_⟩
        · change tt.params = (rest.length + (tt.requests ++ [param]).length : Int)
          rw [length_append, length_singleton]
          push_cast
          omega
        · intro available other isChecked
          rcases mem_append.mp isChecked with isChecked | isParam
          · rcases accounted.present available other isChecked with
              isRequested | isPresent
            · exact .inl (mem_append_left _ isRequested)
            · exact .inr (earlier other isChecked isPresent)
          · exact .inl (mem_append_right _ isParam)
    | false =>
        rw [if_neg Bool.false_ne_true]
        refine ⟨split, ?_, accounted.error, fun returned =>
          absurd returned notReturned, ?_⟩
        · exact isLess
        · intro available other isChecked
          rcases mem_append.mp isChecked with isChecked | isParam
          · rcases accounted.present available other isChecked with
              isRequested | isPresent
            · exact .inl isRequested
            · exact .inr (earlier other isChecked isPresent)
          · rw [mem_singleton.mp isParam]
            exact .inr (isPresent_of_check counted isAsked)

/-!
## Settled requests
-/

variable {param : NIOParam}

section

variable (isRequested : param ∈ tt.requests)

include isRequested

/-- A request is settled by taking it out and counting it. -/
theorem Accounted.settled :
    tt.params - 1 =
      (tt.unchecked.length + (tt.requests.erase param).length : Int) := by
  have count := accounted.count
  have positive := length_pos_of_mem isRequested
  rw [length_erase_of_mem isRequested]
  omega

/-- The data of a request have arrived where they are looked for. -/
theorem Accounted.receivedValue
    {received : List Stored}
    (isStored : param.stored ∈ received) :
    ({ tt with
        store := tt.store ++ received
        requests := tt.requests.erase param }.decreaseParams).Accounted
      params where
  split := accounted.split
  count := accounted.settled isRequested
  error := accounted.error
  returned := accounted.returned
  present := by
    intro available other isChecked
    by_cases isParam : other = param
    · rw [isParam]
      exact .inr (.inr (mem_append_right _ isStored))
    · rcases accounted.present available other isChecked with
        isOther | noData | isThere
      · exact .inl ((mem_erase_of_ne isParam).mpr isOther)
      · exact .inr (.inl noData)
      · exact .inr (.inr (mem_append_left _ isThere))

theorem Accounted.notAvailable :
    ({ tt with
        requests := tt.requests.erase param
        unavailable := tt.unavailable ++ [param]
        error := true }.decreaseParams).Accounted params where
  split := accounted.split
  count := accounted.settled isRequested
  error := by simp [decreaseParams]
  returned := accounted.returned
  present := fun available => absurd available (by simp [decreaseParams])

end

omit accounted in
theorem stored_mem_storeReceived
    {destination : Destination}
    (fits : Fits param destination) :
    param.stored ∈ storeReceived param destination := by
  cases destination with
  | FILE =>
      have isFile : param.type = .FILE_T := fits
      rw [stored, if_pos isFile]
      exact mem_singleton.mpr rfl
  | OBJECT =>
      have notFile : param.type ≠ .FILE_T := fits
      rw [stored, if_neg notFile]
      exact mem_singleton.mpr rfl
  | ARRAY => exact fits.elim

omit accounted in
/-- With a request left the task has not been answered. -/
theorem Progress.unanswered_of_ne
    (progress : tt.Progress params)
    (notCounted : tt.params ≠ 0) :
    tt.answers = [] := by
  cases progress with
  | unanswered noAnswer running => exact noAnswer
  | answered answer isAnswer allCounted isRight =>
      exact absurd allCounted notCounted

theorem Accounted.params_ne_zero
    (isRequested : param ∈ tt.requests) :
    tt.params ≠ 0 := by
  have count := accounted.count
  have positive := length_pos_of_mem isRequested
  omega

/-- Answers change nothing that is accounted for. -/
theorem Accounted.answer
    {answers : List JobAnswer} :
    Accounted params { tt with answers } :=
  ⟨accounted.split, accounted.count, accounted.error, accounted.returned,
    accounted.present⟩

theorem Progress.executeTask
    (noAnswer : tt.answers = [])
    (allCounted : tt.params = 0)
    (available : tt.unavailable = []) :
    tt.executeTask.Progress params := by
  refine .answered (.executeTask tt.store) ?_ allCounted
    ⟨accounted.isPresent allCounted available, available⟩
  rw [TransferringTask.executeTask, noAnswer]
  rfl

end

theorem Progress.sendTaskDone
    (noAnswer : tt.answers = [])
    (allCounted : tt.params = 0)
    (notAvailable : tt.unavailable ≠ []) :
    tt.sendTaskDone.Progress params := by
  refine .answered .sendTaskDone ?_ allCounted notAvailable
  rw [TransferringTask.sendTaskDone, noAnswer]
  rfl

section Steps

variable {step : ReceivingStep}

theorem Accounted.next
    (accounted : tt.Accounted params)
    (enabled : step.Enabled tt)
    (inTime : AnswersInTime worker tt step) :
    (step.next worker tt).Accounted params := by
  cases step with
  | checkParameter answers =>
      obtain ⟨param, rest, isNext⟩ := exists_cons_of_ne_nil enabled
      have isHead : param ∈ tt.unchecked.head? := by
        rw [isNext]
        rfl
      obtain ⟨counted, takesNothing⟩ := inTime param isHead
      exact accounted.checkParameter isNext counted takesNothing
  | finishReceiving transfersRaise =>
      have returned : Accounted params { tt with hasReturned := true } :=
        ⟨accounted.split, accounted.count, accounted.error,
          fun _ => enabled.1, accounted.present⟩
      simp only [ReceivingStep.next, finishReceiving]
      split
      · exact returned.answer
      · exact returned
  | receivedValue param destination =>
      have settled := accounted.receivedValue enabled
        (stored_mem_storeReceived inTime)
      simp only [ReceivingStep.next, TransferringTask.receivedValue]
      split
      · split
        · exact settled.answer
        · exact settled.answer
      · exact settled
  | dataNotAvailable param =>
      have settled := accounted.notAvailable enabled
      simp only [ReceivingStep.next, handleRequestedDataNotAvailableError]
      split
      · exact settled.answer
      · exact settled

theorem Progress.next
    (progress : tt.Progress params)
    (accounted : tt.Accounted params)
    (enabled : step.Enabled tt)
    (inTime : AnswersInTime worker tt step) :
    (step.next worker tt).Progress params := by
  cases step with
  | checkParameter answers =>
      have someLeft : tt.unchecked ≠ [] := enabled
      have notReturned : tt.hasReturned ≠ true :=
        fun returned => someLeft (accounted.returned returned)
      have count := accounted.count
      have positive := length_pos_iff.mpr someLeft
      have notCounted : tt.params ≠ 0 := by omega
      have noAnswer := progress.unanswered_of_ne notCounted
      obtain ⟨sameAnswers, sameReturned⟩ := checkParameter_answers worker
        answers tt
      refine .unanswered (sameAnswers.trans noAnswer) fun returned => ?_
      exact absurd (sameReturned.symm.trans returned) notReturned
  | finishReceiving transfersRaise =>
      have returned : Accounted params { tt with hasReturned := true } :=
        ⟨accounted.split, accounted.count, accounted.error,
          fun _ => enabled.1, accounted.present⟩
      simp only [ReceivingStep.next, finishReceiving]
      by_cases allCounted : tt.params = 0
      · have inTime := inTime allCounted
        cases transfersRaise with
        | false =>
            rw [if_pos (by simp [allCounted])]
            exact .executeTask returned inTime.1 allCounted inTime.2
        | true =>
            rw [if_neg (by simp)]
            cases progress with
            | unanswered noAnswer running => exact absurd noAnswer inTime
            | answered answer isAnswer _ isRight =>
                exact .answered answer isAnswer allCounted isRight
      · rw [if_neg (by simp [allCounted])]
        exact .unanswered (progress.unanswered_of_ne allCounted)
          fun _ => allCounted
  | receivedValue param destination =>
      have noAnswer :=
        progress.unanswered_of_ne (accounted.params_ne_zero enabled)
      have settled := accounted.receivedValue enabled
        (stored_mem_storeReceived inTime)
      simp only [ReceivingStep.next, TransferringTask.receivedValue]
      split
      · next allCounted =>
        split
        · next isError =>
          exact .sendTaskDone noAnswer allCounted (settled.error.mp isError)
        · next noError =>
          refine .executeTask settled noAnswer allCounted ?_
          by_contra notAvailable
          exact noError (settled.error.mpr notAvailable)
      · next notCounted =>
        exact .unanswered noAnswer fun _ => notCounted
  | dataNotAvailable param =>
      have noAnswer :=
        progress.unanswered_of_ne (accounted.params_ne_zero enabled)
      simp only [ReceivingStep.next, handleRequestedDataNotAvailableError]
      split
      · next allCounted =>
        exact .sendTaskDone noAnswer allCounted (by simp [decreaseParams])
      · next notCounted =>
        exact .unanswered noAnswer fun _ => notCounted

end Steps

/-- What is expected of the answers holds in each state. -/
theorem Progress.answeredOnce
    (progress : tt.Progress params)
    (accounted : tt.Accounted params) :
    tt.AnsweredOnce params := by
  cases progress with
  | unanswered noAnswer running =>
      refine ⟨by simp [noAnswer], by simp [noAnswer], by simp [noAnswer], ?_⟩
      intro allChecked returned noRequest
      have count := accounted.count
      rw [allChecked, noRequest] at count
      exact absurd count (running returned)
  | answered answer isAnswer allCounted isRight =>
      refine ⟨by simp [isAnswer], ?_, ?_, by simp [isAnswer]⟩
      · intro store isExecuted
        rw [isAnswer, mem_singleton] at isExecuted
        subst isExecuted
        exact isRight
      · intro isReported
        rw [isAnswer, mem_singleton] at isReported
        subst isReported
        exact isRight

section Runs

variable
  {store : List Stored}
  {steps : List ReceivingStep}

theorem accounted_new
    (store : List Stored)
    (params : List NIOParam) :
    (new store params).Accounted params where
  split := rfl
  count := (Int.add_zero _).symm
  error := by simp [new]
  returned := by simp [new]
  present := fun _ => forall_mem_nil _

theorem progress_of_run
    (run :
      Run (receivedTask worker store params) (AnswersInTime worker) steps tt) :
    tt.Accounted params ∧ tt.Progress params := by
  induction run with
  | start =>
      exact ⟨accounted_new store params,
        .unanswered rfl (by simp [receivedTask, new])⟩
  | snoc run enabled inTime hypothesis =>
      rcases hypothesis with ⟨accounted, progress⟩
      exact ⟨accounted.next enabled inTime,
        progress.next accounted enabled inTime⟩

/-- Each task is answered once in the runs that meet the condition. -/
theorem answeredOnce_of_run
    (run :
      Run (receivedTask worker store params) (AnswersInTime worker) steps tt) :
    tt.AnsweredOnce params :=
  (progress_of_run run).2.answeredOnce (progress_of_run run).1

end Runs

/-- An object of another node, and a parameter without data -/
def transferredParams : List NIOParam :=
  [⟨.OBJECT_T, true, "d1v2", some ⟨"d1v2", [⟨some "other", "d1v2"⟩]⟩⟩,
    ⟨.FILE_T, false, "d2v1", none⟩]

def nothingInHost : CheckAnswers :=
  ⟨fun _ => false, fun _ _ => false, fun _ _ => false, fun _ => false⟩

/-- The object arrives after the task has been received. -/
def arrivedLater : List ReceivingStep :=
  [.checkParameter nothingInHost, .checkParameter nothingInHost,
    .finishReceiving false,
    .receivedValue (transferredParams.head (by decide)) .OBJECT]

theorem answeredOnce_arrivedLater :
    ((receivedTask ⟨"host", "/tmp"⟩ [] transferredParams).after
      arrivedLater).AnsweredOnce transferredParams := by
  have run :
      Run (receivedTask ⟨"host", "/tmp"⟩ [] transferredParams)
        (AnswersInTime ⟨"host", "/tmp"⟩) arrivedLater
        ((receivedTask ⟨"host", "/tmp"⟩ [] transferredParams).after
          arrivedLater) :=
    run_of_executable (by decide)
  exact answeredOnce_of_run run

/-- The object arrives while the transfers are requested. -/
def arrivedEarly : List ReceivingStep :=
  [.checkParameter nothingInHost, .checkParameter nothingInHost,
    .receivedValue (transferredParams.head (by decide)) .OBJECT,
    .finishReceiving false]

/-- The task is executed when the object arrives, and once more. -/
theorem not_answeredOnce_arrivedEarly :
    ¬ ∀ worker store params steps tt,
      Run (receivedTask worker store params) anyStep steps tt →
        tt.AnsweredOnce params := by
  intro answeredOnce
  have run :
      Run (receivedTask ⟨"host", "/tmp"⟩ [] transferredParams) anyStep
        arrivedEarly
        ((receivedTask ⟨"host", "/tmp"⟩ [] transferredParams).after
          arrivedEarly) :=
    run_of_executable (by decide)
  exact absurd (answeredOnce _ _ _ _ _ run).once (by decide)

end TransferringTask

end DistributedRdf.Nio
