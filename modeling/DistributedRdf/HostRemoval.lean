import DistributedRdf.MonitorThreads

namespace DistributedRdf.Data

open Execution Instruction List

/-!
# The lock against host removal

The methods of `LogicalData` are synchronized.  `lockHostRemoval` takes the
permit of a semaphore and `releaseHostRemoval` returns it, both inside the
monitor, and `obtainData` of the master keeps the permit while it looks for a
copy of the data.
-/

abbrev CopyId := Nat

/-- A synchronized method with what it does to the semaphore and to listeners -/
def synchronizedMethod (body : List (Instruction CopyId)) :
    List (Instruction CopyId) :=
  [.enter] ++ body ++ [.exit]

/--
`getLocations`, `isInMemory`, `getValue`, `addLocation`, `getCopiesInProgress`,
`getURIs`, `getAllHosts` and `finishedCopy` only use the monitor.
-/
def useMonitor : List (Instruction CopyId) :=
  synchronizedMethod []

def lockHostRemoval : List (Instruction CopyId) :=
  synchronizedMethod [.acquire]

def releaseHostRemoval : List (Instruction CopyId) :=
  synchronizedMethod [.release]

/-- What `obtainData` does while it has the permit -/
inductive SearchStep where
  | useMonitor
  | waitForCopyTofinish (copy : CopyId)
  deriving DecidableEq

def SearchStep.instructions : SearchStep → List (Instruction CopyId)
  | .useMonitor => Data.useMonitor
  | .waitForCopyTofinish copy => [.waitFor copy]

/-- What a thread calls that needs the data -/
inductive UserCall where
  /-- Answered before the copies are looked at: in storage or in memory -/
  | obtainPresentData
  | obtainData (search : List SearchStep)
  /-- Returns at once if the data are being saved -/
  | removeHostAndCheckLocationToSave (isBeingSaved : Bool)
  | addLocation
  | getURIs
  deriving DecidableEq

def UserCall.instructions : UserCall → List (Instruction CopyId)
  | .obtainPresentData => useMonitor ++ useMonitor ++ useMonitor
  | .obtainData search =>
      useMonitor ++ useMonitor ++ lockHostRemoval ++ useMonitor ++
        search.flatMap SearchStep.instructions ++ releaseHostRemoval
  | .removeHostAndCheckLocationToSave isBeingSaved =>
      synchronizedMethod (if isBeingSaved then [] else [.acquire, .release])
  | .addLocation | .getURIs => useMonitor

def UserCall.waitedCopies : UserCall → List CopyId
  | .obtainData search =>
      search.filterMap fun step =>
        match step with
        | .useMonitor => none
        | .waitForCopyTofinish copy => some copy
  | _ => []

/-- What a transfer thread calls -/
inductive TransferCall where
  | finishedCopy
  | addLocation
  | getURIs
  /-- The listeners are notified inside the monitor by an `ImmediateCopy`. -/
  | endCopy (copy : CopyId) (insideMonitor : Bool)
  deriving DecidableEq

def TransferCall.instructions : TransferCall → List (Instruction CopyId)
  | .finishedCopy | .addLocation | .getURIs => useMonitor
  | .endCopy copy insideMonitor =>
      if insideMonitor then synchronizedMethod [.announce copy]
      else [.announce copy]

/-- The threads, where each copy that is waited for is being transferred -/
structure LogicalDataThreads where
  users : List (List UserCall)
  transfers : List (List TransferCall)
  transferred :
    ∀ calls ∈ users, ∀ call ∈ calls, ∀ copy ∈ call.waitedCopies,
      ∃ transfer ∈ transfers, ∃ insideMonitor,
        TransferCall.endCopy copy insideMonitor ∈ transfer

namespace LogicalDataThreads

variable (threads : LogicalDataThreads)

def programs :
    List (List (Instruction CopyId)) :=
  threads.users.map (·.flatMap UserCall.instructions) ++
    threads.transfers.map (·.flatMap TransferCall.instructions)

/-- All the interleavings of the threads that use the data -/
def system :
    TransitionSystem (SharedMonitor CopyId) Nat :=
  monitorSystem fun thread => (threads.programs[thread]?).getD []

instance
    (threads : LogicalDataThreads)
    (state : SharedMonitor CopyId)
    (thread : Nat) :
    Decidable (threads.system.Enabled state thread) :=
  inferInstanceAs (Decidable (state.CanStep thread))

end LogicalDataThreads

/-!
## What the methods leave to do
-/

section Follows

variable
  {holding : Bool}
  {rest : List (Instruction CopyId)}

theorem follows_search
    {search : List SearchStep}
    (follows : Follows .outside holding rest) :
    Follows .outside holding
      (search.flatMap SearchStep.instructions ++ rest) := by
  induction search with
  | nil => exact follows
  | cons step later hypothesis =>
      rw [flatMap_cons, append_assoc]
      cases step with
      | useMonitor => exact hypothesis
      | waitForCopyTofinish copy => exact hypothesis

theorem follows_userCall
    {call : UserCall}
    (follows : Follows .outside false rest) :
    Follows .outside false (call.instructions ++ rest) := by
  cases call with
  | obtainPresentData => exact follows
  | obtainData search =>
      have released : Follows .outside true (releaseHostRemoval ++ rest) :=
        ⟨rfl, follows⟩
      have searched :
          Follows .outside true
            (search.flatMap SearchStep.instructions ++
              (releaseHostRemoval ++ rest)) :=
        follows_search released
      rw [UserCall.instructions, append_assoc, append_assoc]
      exact ⟨rfl, searched⟩
  | removeHostAndCheckLocationToSave isBeingSaved =>
      cases isBeingSaved with
      | false => exact ⟨rfl, rfl, follows⟩
      | true => exact follows
  | addLocation | getURIs => exact follows

theorem follows_transferCall
    {call : TransferCall}
    (follows : Follows .outside false rest) :
    Follows .outside false (call.instructions ++ rest) := by
  cases call with
  | finishedCopy | addLocation | getURIs => exact follows
  | endCopy copy insideMonitor =>
      cases insideMonitor with
      | false => exact follows
      | true => exact follows

/-- One call after the other -/
theorem follows_calls
    {Call : Type}
    {instructions : Call → List (Instruction CopyId)}
    (follows :
      ∀ call rest, Follows .outside false rest →
        Follows .outside false (instructions call ++ rest))
    (calls : List Call) :
    Follows .outside false (calls.flatMap instructions) := by
  induction calls with
  | nil => rfl
  | cons call later hypothesis =>
      rw [flatMap_cons]
      exact follows call _ hypothesis

end Follows

section Awaited

variable {copy : CopyId}

theorem not_waitFor_mem_useMonitor :
    .waitFor copy ∉ useMonitor := by
  simp [useMonitor, synchronizedMethod]

theorem waitFor_mem_search
    {search : List SearchStep}
    (isAwaited :
      .waitFor copy ∈ search.flatMap SearchStep.instructions) :
    copy ∈ (UserCall.obtainData search).waitedCopies := by
  obtain ⟨step, isStep, isAwaited⟩ := mem_flatMap.mp isAwaited
  cases step with
  | useMonitor => exact absurd isAwaited not_waitFor_mem_useMonitor
  | waitForCopyTofinish other =>
      cases mem_singleton.mp isAwaited
      exact mem_filterMap.mpr ⟨_, isStep, rfl⟩

theorem waitFor_mem_userCall
    {call : UserCall}
    (isAwaited : .waitFor copy ∈ call.instructions) :
    copy ∈ call.waitedCopies := by
  cases call with
  | obtainData search =>
      simp only [UserCall.instructions, useMonitor, lockHostRemoval,
        releaseHostRemoval, synchronizedMethod, mem_append, mem_cons,
        not_mem_nil, reduceCtorEq, or_false, false_or] at isAwaited
      exact waitFor_mem_search isAwaited
  | removeHostAndCheckLocationToSave isBeingSaved =>
      cases isBeingSaved <;>
        simp [UserCall.instructions, synchronizedMethod] at isAwaited
  | obtainPresentData | addLocation | getURIs =>
      simp [UserCall.instructions, useMonitor, synchronizedMethod] at isAwaited

/-- Transfer threads wait for nothing. -/
theorem not_waitFor_mem_transferCall
    {call : TransferCall} :
    .waitFor copy ∉ call.instructions := by
  cases call with
  | finishedCopy | addLocation | getURIs => exact not_waitFor_mem_useMonitor
  | endCopy other insideMonitor =>
      cases insideMonitor <;>
        simp [TransferCall.instructions, synchronizedMethod]

theorem announce_mem_endCopy
    {insideMonitor : Bool} :
    .announce copy ∈
      (TransferCall.endCopy copy insideMonitor).instructions := by
  cases insideMonitor <;> simp [TransferCall.instructions, synchronizedMethod]

end Awaited

namespace LogicalDataThreads

variable (threads : LogicalDataThreads)

theorem follows_programs (thread : Nat) :
    Follows .outside false ((threads.programs[thread]?).getD []) := by
  cases isProgram : threads.programs[thread]? with
  | none => rfl
  | some program =>
      rcases mem_append.mp (mem_of_getElem? isProgram) with
        isUser | isTransfer
      · obtain ⟨calls, -, rfl⟩ := mem_map.mp isUser
        exact follows_calls (fun _ _ => follows_userCall) calls
      · obtain ⟨calls, -, rfl⟩ := mem_map.mp isTransfer
        exact follows_calls (fun _ _ => follows_transferCall) calls

theorem awaited_start : threads.system.start.Awaited := by
  intro thread copy isAwaited
  change _ ∈ (threads.programs[thread]?).getD [] at isAwaited
  cases isProgram : threads.programs[thread]? with
  | none =>
      rw [isProgram] at isAwaited
      exact absurd isAwaited not_mem_nil
  | some program =>
      rw [isProgram] at isAwaited
      rcases mem_append.mp (mem_of_getElem? isProgram) with
        isUser | isTransfer
      case inr =>
        obtain ⟨calls, -, rfl⟩ := mem_map.mp isTransfer
        obtain ⟨call, -, isAwaited⟩ := mem_flatMap.mp isAwaited
        exact absurd isAwaited not_waitFor_mem_transferCall
      case inl =>
        obtain ⟨calls, isCalls, rfl⟩ := mem_map.mp isUser
        obtain ⟨call, isCall, isAwaited⟩ := mem_flatMap.mp isAwaited
        obtain ⟨transfer, isTransfer, insideMonitor, isEnded⟩ :=
          threads.transferred calls isCalls call isCall copy
            (waitFor_mem_userCall isAwaited)
        have isOther :
            transfer.flatMap TransferCall.instructions ∈ threads.programs :=
          mem_append_right _ (mem_map.mpr ⟨_, isTransfer, rfl⟩)
        obtain ⟨other, otherProgram⟩ := getElem?_of_mem isOther
        refine Or.inr ⟨other, ?_, ?_⟩
        · change _ ∈ (threads.programs[other]?).getD []
          rw [otherProgram]
          exact mem_flatMap.mpr ⟨_, isEnded, announce_mem_endCopy⟩
        · intro awaited
          change _ ∉ (threads.programs[other]?).getD []
          rw [otherProgram]
          intro isWaiting
          obtain ⟨call, -, isWaiting⟩ := mem_flatMap.mp isWaiting
          exact not_waitFor_mem_transferCall isWaiting

/--
In no state of the run all threads are blocked, and whoever has the permit can
take the monitor to return it.
-/
def NeverBlocks (schedule : List Nat) : Prop :=
  ∀ before reached, before <+: schedule →
    Run threads.system anyStep before reached →
      ¬ reached.Deadlocked ∧ reached.HolderCanEnter

/--
Nothing blocks if and only if no thread takes the monitor to ask for a permit
that another thread has.
-/
theorem neverBlocks_iff
    {schedule : List Nat}
    {state : SharedMonitor CopyId}
    (run : Run threads.system anyStep schedule state) :
    threads.NeverBlocks schedule ↔
      Run threads.system SharedMonitor.AsksWhenFree schedule state :=
  holderCanEnter_iff_of_run threads.follows_programs threads.awaited_start run

/-- A thread that looks for the data and one that removes a host -/
def twoUsers : LogicalDataThreads where
  users :=
    [[.obtainData []], [.removeHostAndCheckLocationToSave false, .addLocation]]
  transfers := []
  transferred := by decide

theorem neverBlocks_twoUsers :
    twoUsers.NeverBlocks [0, 0, 0, 0, 0, 0, 0, 0, 0, 0, 0, 0, 1, 1, 1, 1, 1, 1] :=
  (twoUsers.neverBlocks_iff (run_of_executable (by decide))).mpr
    (run_of_executable (by decide))

/-- The host is removed while the other thread has the permit. -/
theorem not_neverBlocks_twoUsers :
    ∃ schedule state, Run twoUsers.system anyStep schedule state ∧
      state.Deadlocked ∧ ¬ twoUsers.NeverBlocks schedule := by
  have run :
      Run twoUsers.system anyStep [0, 0, 0, 0, 0, 0, 0, 1]
        (twoUsers.system.after [0, 0, 0, 0, 0, 0, 0, 1]) :=
    run_of_executable (by decide)
  have deadlocked :
      (twoUsers.system.after [0, 0, 0, 0, 0, 0, 0, 1]).Deadlocked := by
    refine ⟨⟨0, cons_ne_nil _ _⟩, ?_⟩
    rintro (_ | _ | thread) unfinished
    · decide
    · decide
    · exact absurd rfl unfinished
  exact ⟨_, _, run, deadlocked, fun neverBlocks =>
    (neverBlocks _ _ (prefix_refl _) run).1 deadlocked⟩

end LogicalDataThreads

end DistributedRdf.Data
