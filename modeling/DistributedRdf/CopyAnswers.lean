import DistributedRdf.OrderedCopies

namespace DistributedRdf.Comm

open Execution NIOWorkerNode List

/-!
# How ordered copies are answered

Each way of answering notifies the listener or leaves one request, and a request
is answered with one notification.  Deferred copies end before the data are at
their target: the worker fetches the data itself.
-/

/-- What a caller expects whenever the call and its copies have gone on -/
structure IsAnsweredOnce (ordered : Ordered) : Prop where
  once : ordered.reports.length + ordered.requests.length = 1
  released : ordered.hostRemovalLocks = 0
  there : ∀ report ∈ ordered.reports, report ≠ .notifyEnd false

namespace Ordered

variable (ordered : Ordered)

/-- The notifications that were made or are still to come -/
def answers : Nat :=
  ordered.reports.length + ordered.requests.length

section Updates

variable (order : Order) (host : COMPSsNode)

@[simp] theorem answers_setDataTarget (name : String) :
    (ordered.setDataTarget name).answers = ordered.answers :=
  rfl

@[simp] theorem answers_store (place : Place) (isStored : Bool) :
    (ordered.store place isStored).answers = ordered.answers :=
  rfl

@[simp] theorem answers_addLocation :
    (ordered.addLocation order).answers = ordered.answers := by
  unfold addLocation
  split <;> rfl

@[simp] theorem answers_lockHostRemoval :
    ordered.lockHostRemoval.answers = ordered.answers :=
  rfl

@[simp] theorem answers_releaseHostRemoval :
    ordered.releaseHostRemoval.answers = ordered.answers :=
  rfl

@[simp] theorem answers_notifyEnd :
    (ordered.notifyEnd host).answers = ordered.answers + 1 := by
  simp [answers, notifyEnd]
  omega

@[simp] theorem answers_notifyFailure :
    ordered.notifyFailure.answers = ordered.answers + 1 := by
  simp [answers, notifyFailure]
  omega

@[simp] theorem answers_requestCopy (path : String) :
    (ordered.requestCopy path).answers = ordered.answers + 1 := by
  simp [answers, requestCopy, setDataTarget]
  omega

@[simp] theorem hostRemovalLocks_addLocation :
    (ordered.addLocation order).hostRemovalLocks =
      ordered.hostRemovalLocks := by
  unfold addLocation
  split <;> rfl

@[simp] theorem requests_addLocation :
    (ordered.addLocation order).requests = ordered.requests := by
  unfold addLocation
  split <;> rfl

@[simp] theorem reports_addLocation :
    (ordered.addLocation order).reports = ordered.reports := by
  unfold addLocation
  split <;> rfl

@[simp] theorem holds_addLocation :
    (ordered.addLocation order).holds = ordered.holds := by
  unfold addLocation
  split <;> rfl

@[simp] theorem dataTarget_addLocation :
    (ordered.addLocation order).dataTarget = ordered.dataTarget := by
  unfold addLocation
  split <;> rfl

@[simp] theorem dataSource_addLocation :
    (ordered.addLocation order).dataSource = ordered.dataSource := by
  unfold addLocation
  split <;> rfl

end Updates

/-- Only the target data and the group change. -/
theorem copiedData_eq (order : Order) :
    ∃ located,
      ordered.copiedData order =
        { ordered with registered := [], tgtLocations := located } := by
  have folded (before : Ordered) (registered : List Nat) :
      ∃ located,
        registered.foldl
          (fun ordered _ =>
            if order.target.type = .PRIVATE then ordered.addLocation order
            else ordered) before =
          { before with tgtLocations := located } := by
    induction registered generalizing before with
    | nil => exact ⟨before.tgtLocations, rfl⟩
    | cons copy rest hypothesis =>
        obtain ⟨located, isFolded⟩ :=
          hypothesis
            (if order.target.type = .PRIVATE then before.addLocation order
              else before)
        refine ⟨located, isFolded.trans ?_⟩
        split
        · unfold addLocation
          split <;> rfl
        · rfl
  exact folded { ordered with registered := [] } ordered.registered

/-- A request that is answered is one answer less to come. -/
theorem answers_next
    (order : Order)
    {answer : Answer}
    (enabled : ordered.Enabled answer) :
    (ordered.next order answer).answers = ordered.answers := by
  have finished
      {before : Ordered}
      {request : MasterDataRequest}
      (member : request ∈ before.requests) :
      (before.finishRequest request).answers + 1 = before.answers := by
    have isLess := length_erase_add_one member
    simp only [answers, finishRequest]
    omega
  cases answer with
  | receivedValue request =>
      have member : request ∈ ordered.requests := enabled
      simp only [next, receivedValue, answers_notifyEnd]
      rw [finished (by simpa [store] using member)]
      simp
  | handleRequestedDataNotAvailableError request =>
      simp only [next, handleRequestedDataNotAvailableError,
        answers_notifyFailure]
      exact finished enabled
  | copiedData =>
      obtain ⟨located, copied⟩ := ordered.copiedData_eq order
      rw [next, copied]
      rfl

theorem hostRemovalLocks_next (order : Order) (answer : Answer) :
    (ordered.next order answer).hostRemovalLocks =
      ordered.hostRemovalLocks := by
  cases answer with
  | receivedValue request => exact hostRemovalLocks_addLocation _ order
  | handleRequestedDataNotAvailableError request => rfl
  | copiedData =>
      obtain ⟨located, copied⟩ := ordered.copiedData_eq order
      rw [next, copied]

end Ordered

open Ordered

/-!
## How many answers there are
-/

namespace NIOWorkerNode

variable
  (surroundings : Surroundings)
  (order : Order)
  (ordered : Ordered)

theorem answers_orderCopy :
    (orderCopy order ordered).answers = ordered.answers + 1 := by
  simp only [orderCopy, answers_notifyEnd]
  rfl

theorem answers_orderStorageCopy (host : COMPSsNode) :
    (orderStorageCopy surroundings order ordered host).answers =
      ordered.answers + 1 := by
  unfold orderStorageCopy
  split
  · unfold newReplica
    split <;> simp
  · unfold newVersion
    split <;> simp

theorem answers_obtainData (node : Nat) :
    (obtainData surroundings order ordered node).answers =
      ordered.answers + 1 := by
  unfold obtainData
  split
  · exact answers_orderStorageCopy surroundings order ordered _
  · exact answers_orderCopy order ordered

/-- The worker sends, or what it should send is at the master already. -/
def CanSend (node : Nat) : Prop :=
  (order.tgtData.isSome ∧ (order.ld.alreadyAvailable .master).isSome) ∨
    surroundings.sends node = .returned
  deriving Decidable

variable {node : Nat}

theorem answers_sendData_of_canSend
    (canSend : CanSend surroundings order node) :
    (sendData surroundings order ordered node).1.answers =
        ordered.answers + 1 ∧
      (sendData surroundings order ordered node).2 = true := by
  unfold sendData
  split
  · exact ⟨answers_orderCopy order ordered, rfl⟩
  · dsimp only
    split
    case h_1 => simp
    case h_2 target isTarget unavailable =>
        have sends : surroundings.sends node = .returned := by
          refine canSend.resolve_left fun available => ?_
          simp [available.1] at unavailable
          simp [unavailable] at available
        simp [sends]

theorem sendData_of_not_canSend
    {target : MultiURI}
    (isTarget : order.target.getURIInHost .master = some target)
    (cannotSend : ¬ CanSend surroundings order node)
    (notStarted : surroundings.sends node ≠ .raisedAfterStart) :
    sendData surroundings order ordered node = (ordered, false) := by
  rw [CanSend, not_or] at cannotSend
  have unavailable :
      (if order.tgtData.isSome then order.ld.alreadyAvailable .master
        else none) = none := by
    split
    case isTrue hasTarget => simpa [hasTarget] using cannotSend.1
    case isFalse => rfl
  have raises : surroundings.sends node = .raisedBeforeStart := by
    cases sends : surroundings.sends node with
    | returned => exact absurd sends cannotSend.2
    | raisedBeforeStart => rfl
    | raisedAfterStart => exact absurd sends notStarted
  simp [sendData, isTarget, unavailable, raises]

end NIOWorkerNode

namespace COMPSsMaster

variable
  (surroundings : Surroundings)
  (order : Order)
  (targetPath : String)

def Attempt.Succeeds : Attempt → Prop
  | .copyFile sourcePath _ => surroundings.copies sourcePath targetPath = true
  | .sendData node => NIOWorkerNode.CanSend surroundings order node

instance :
    (attempt : Attempt) →
      Decidable (attempt.Succeeds surroundings order targetPath)
  | .copyFile _ _ => inferInstanceAs (Decidable (_ = true))
  | .sendData _ => inferInstanceAs (Decidable (_ ∨ _))

variable
  {surroundings order targetPath}
  {attempt : Attempt}

theorem answers_run_of_succeeds
    (succeeds : attempt.Succeeds surroundings order targetPath)
    (ordered : Ordered) :
    (attempt.run surroundings order targetPath ordered).1.answers =
        ordered.answers + 1 ∧
      (attempt.run surroundings order targetPath ordered).2 = true := by
  cases attempt with
  | copyFile sourcePath addsLocation =>
      have copies : surroundings.copies sourcePath targetPath = true := succeeds
      cases addsLocation <;> simp [Attempt.run, copies]
  | sendData node =>
      exact answers_sendData_of_canSend surroundings order ordered
        succeeds

variable {target : MultiURI}

theorem run_of_not_succeeds
    (isTarget : order.target.getURIInHost .master = some target)
    (neverStarted : ∀ node, surroundings.sends node ≠ .raisedAfterStart)
    (fails : ¬ attempt.Succeeds surroundings order targetPath)
    (ordered : Ordered) :
    attempt.run surroundings order targetPath ordered = (ordered, false) := by
  cases attempt with
  | copyFile sourcePath addsLocation => exact if_neg fails
  | sendData node =>
      exact sendData_of_not_canSend surroundings order ordered
        isTarget fails (neverStarted node)

variable {attempts : List Attempt}

/-- The first attempt that succeeds answers, and no later one is made. -/
theorem answers_tryInOrder
    (isTarget : order.target.getURIInHost .master = some target)
    (neverStarted : ∀ node, surroundings.sends node ≠ .raisedAfterStart)
    (hasAlternative :
      ∃ attempt ∈ attempts, attempt.Succeeds surroundings order targetPath)
    (ordered : Ordered) :
    (tryInOrder surroundings order targetPath ordered attempts).answers =
      ordered.answers + 1 := by
  induction attempts with
  | nil => simp at hasAlternative
  | cons attempt rest hypothesis =>
      rw [tryInOrder]
      by_cases succeeds : attempt.Succeeds surroundings order targetPath
      · have answered := answers_run_of_succeeds succeeds ordered
        simp only [answered.2, if_true]
        exact answered.1
      · rw [run_of_not_succeeds isTarget neverStarted succeeds ordered]
        refine hypothesis ?_
        simpa [succeeds] using hasAlternative

/-- What every attempt keeps -/
theorem tryInOrder_preserves
    (Kept : Ordered → Prop)
    (each :
      ∀ attempt ∈ attempts, ∀ ordered, Kept ordered →
        Kept (attempt.run surroundings order targetPath ordered).1)
    {ordered : Ordered}
    (kept : Kept ordered) :
    Kept (tryInOrder surroundings order targetPath ordered attempts) := by
  induction attempts generalizing ordered with
  | nil => exact kept
  | cons attempt rest hypothesis =>
      rw [forall_mem_cons] at each
      rw [tryInOrder]
      split
      · exact each.1 ordered kept
      · exact hypothesis each.2 (each.1 ordered kept)

end COMPSsMaster

/-!
## What is at the target when an end is notified
-/

/--
The registered locations have the data.  What was written to a file from memory,
what a copy in progress has left on the master and what was received as an
object are the data, too.
-/
structure Trusted (surroundings : Surroundings) (order : Order) : Prop where
  located :
    ∀ uri ∈ order.ld.getURIs,
      surroundings.holds (.file uri.host uri.path) = true
  persistent :
    ∀ loc ∈ order.ld.locations, loc.type = .PERSISTENT →
      surroundings.holds (.object loc.path) = true ∧
        surroundings.holds (.object order.ld.id) = true
  source :
    ∀ source ∈ order.source, ∀ uri ∈ source.uris,
      surroundings.holds (.file uri.host uri.path) = true
  serialized : order.ld.isInMemory = true → surroundings.serializes = true
  finished :
    ∀ copy ∈ order.ld.copiesInProgress, copy.isToMaster = true →
      ∀ targetPath, surroundings.copies copy.finalTarget targetPath = true →
        surroundings.holds (.file .master copy.finalTarget) = true
  kept : order.isObject = true → order.tgtData.isSome = true

/-- Ends are notified in time, and requests fill the target. -/
structure Ordered.Sound
    (surroundings : Surroundings)
    (path : String)
    (ordered : Ordered) : Prop where
  keeps :
    ∀ place, surroundings.holds place = true → ordered.holds place = true
  there : ∀ report ∈ ordered.reports, report ≠ .notifyEnd false
  requests : ∀ request ∈ ordered.requests, request.target = path
  aimed :
    ordered.requests ≠ [] →
      ordered.dataTarget = some path ∨ ordered.isThere .master = true

namespace Ordered.Sound

variable
  {surroundings : Surroundings}
  {path : String}
  {ordered : Ordered}

theorem new : Sound surroundings path (.new surroundings) where
  keeps _ holds := holds
  there := by simp [Ordered.new]
  requests := by simp [Ordered.new]
  aimed := by simp [Ordered.new]

variable {host : COMPSsNode}

theorem isThere_store
    (isThere : ordered.isThere host = true)
    (place : Place) :
    (ordered.store place true).isThere host = true := by
  unfold Ordered.isThere Ordered.store at *
  cases isTarget : ordered.dataTarget with
  | none => simp [isTarget] at isThere
  | some name =>
      simp only [isTarget, Bool.or_eq_true] at isThere
      rcases isThere with inFile | inStorage
      · simp [inFile]
      · simp [inStorage]

variable (sound : Sound surroundings path ordered)

include sound

theorem store
    (place : Place) :
    Sound surroundings path (ordered.store place true) where
  keeps other holds := by
    have kept := sound.keeps other holds
    simp only [Ordered.store]
    split
    · rfl
    · exact kept
  there := sound.there
  requests := sound.requests
  aimed hasRequest :=
    (sound.aimed hasRequest).imp_right fun isThere =>
      isThere_store isThere place

theorem addLocation
    (order : Order) :
    Sound surroundings path (ordered.addLocation order) := by
  unfold Ordered.addLocation
  split
  · exact ⟨sound.keeps, sound.there, sound.requests, sound.aimed⟩
  · exact sound

/-- The end of an operation whose target has the data -/
theorem notifyThere
    (isThere : ordered.isThere host = true) :
    Sound surroundings path (ordered.notifyEnd host) where
  keeps := sound.keeps
  there := by
    simp only [Ordered.notifyEnd, isThere, forall_mem_append,
      forall_mem_singleton]
    exact ⟨sound.there, by simp⟩
  requests := sound.requests
  aimed := sound.aimed

/-- The end of an operation with a new target that has the data -/
theorem notifyEnd
    {host : COMPSsNode}
    {name : String}
    (holds :
      ordered.holds (.file host name) = true ∨
        ordered.holds (.object name) = true)
    (isMaster : host = .master ∨ ordered.requests = []) :
    Sound surroundings path ((ordered.setDataTarget name).notifyEnd host) := by
  have isThere : (ordered.setDataTarget name).isThere host = true := by
    simpa [Ordered.isThere, Ordered.setDataTarget] using holds
  have aimed :
      Sound surroundings path (ordered.setDataTarget name) := by
    refine ⟨sound.keeps, sound.there, sound.requests, fun hasRequest => ?_⟩
    rcases isMaster with rfl | noRequest
    · exact .inr isThere
    · exact absurd noRequest hasRequest
  exact aimed.notifyThere isThere

theorem notifyFailure :
    Sound surroundings path ordered.notifyFailure where
  keeps := sound.keeps
  there := by
    simp only [Ordered.notifyFailure, forall_mem_append,
      forall_mem_singleton]
    exact ⟨sound.there, by simp⟩
  requests := sound.requests
  aimed := sound.aimed

theorem requestCopy :
    Sound surroundings path (ordered.requestCopy path) where
  keeps := sound.keeps
  there := sound.there
  requests := by
    simp only [Ordered.requestCopy, Ordered.setDataTarget,
      forall_mem_append, forall_mem_singleton]
    exact ⟨sound.requests, trivial⟩
  aimed _ := .inl rfl

theorem finishRequest
    (request : MasterDataRequest) :
    Sound surroundings path (ordered.finishRequest request) where
  keeps := sound.keeps
  there := sound.there
  requests other member := sound.requests other (mem_of_mem_erase member)
  aimed hasRequest := by
    refine sound.aimed ?_
    intro noRequest
    simp [Ordered.finishRequest, noRequest] at hasRequest

end Ordered.Sound

variable {ld : LogicalData}

theorem LogicalData.alreadyAvailable_eq_some
    {host : COMPSsNode}
    {uri : MultiURI}
    (available : ld.alreadyAvailable host = some uri) :
    uri ∈ ld.getURIs ∧ uri.host = host := by
  obtain ⟨loc, member, found⟩ := exists_of_findSome?_eq_some available
  refine ⟨?_, ?_⟩
  · exact mem_flatMap.mpr ⟨loc, member, mem_of_find?_eq_some found⟩
  · simpa using find?_some found

theorem LogicalData.persistentLocation_eq_some
    {loc : DataLocation}
    (found : ld.persistentLocation = some loc) :
    loc ∈ ld.locations ∧ loc.type = .PERSISTENT :=
  ⟨mem_of_find?_eq_some found, by simpa using find?_some found⟩

theorem sound_copyFile
    {surroundings : Surroundings}
    {order : Order}
    {ordered : Ordered}
    {targetPath sourcePath : String}
    (sourceHolds : surroundings.copies sourcePath targetPath = true →
      surroundings.holds (.file .master sourcePath) = true)
    (addsLocation : Bool)
    (sound : ordered.Sound surroundings targetPath) :
    ((COMPSsMaster.Attempt.copyFile sourcePath addsLocation).run surroundings
      order targetPath ordered).1.Sound surroundings targetPath := by
  unfold COMPSsMaster.Attempt.run
  dsimp only
  split
  case isFalse => exact sound
  case isTrue copies =>
      have isHeld := sound.keeps _ (sourceHolds copies)
      rw [isHeld]
      have stored := sound.store (.file .master targetPath)
      split
      · refine (stored.addLocation order).notifyEnd (.inl ?_) (.inl rfl)
        simp [Ordered.store]
      · refine stored.notifyEnd (.inl ?_) (.inl rfl)
        simp [Ordered.store]

section Trusted

variable
  {surroundings : Surroundings}
  {order : Order}
  (trusted : Trusted surroundings order)
  {ordered : Ordered}

include trusted

variable {target : MultiURI}

theorem sound_sendData
    (isTarget : order.target.getURIInHost .master = some target)
    (sound : ordered.Sound surroundings target.path)
    (node : Nat) :
    (sendData surroundings order ordered node).1.Sound
      surroundings target.path := by
  simp only [sendData, isTarget]
  split
  case h_1 uri isAvailable =>
      have available : order.ld.alreadyAvailable .master = some uri := by
        by_contra unavailable
        split at isAvailable
        · exact unavailable isAvailable
        · cases isAvailable
      obtain ⟨member, onMaster⟩ :=
        LogicalData.alreadyAvailable_eq_some available
      refine sound.notifyEnd (.inl (sound.keeps _ ?_)) (.inl rfl)
      exact onMaster ▸ trusted.located uri member
  case h_2 =>
      split
      · exact sound.requestCopy
      · exact sound
      · exact sound.requestCopy

theorem sourceHolds_of_mem_attempts
    {sourcePath : String}
    {addsLocation : Bool}
    (member :
      .copyFile sourcePath addsLocation ∈
        COMPSsMaster.attempts surroundings order)
    {targetPath : String}
    (copies : surroundings.copies sourcePath targetPath = true) :
    surroundings.holds (.file .master sourcePath) = true := by
  simp only [COMPSsMaster.attempts, mem_append, mem_map,
    mem_filter] at member
  rcases member with ((isCopy | isFile) | isSource) | isHost
  · obtain ⟨copy, ⟨inProgress, isToMaster⟩, same⟩ := isCopy
    cases same
    exact trusted.finished copy inProgress isToMaster targetPath copies
  · obtain ⟨uri, ⟨isLocated, onMaster⟩, same⟩ := isFile
    cases same
    rw [← of_decide_eq_true onMaster]
    exact trusted.located uri isLocated
  · cases hasSource : order.source with
    | none => simp [hasSource] at isSource
    | some source =>
        simp only [hasSource, Option.map_some, Option.getD_some,
          COMPSsMaster.sourceAttempts, mem_map] at isSource
        obtain ⟨uri, isLocated, same⟩ := isSource
        have isHeld := trusted.source source hasSource uri isLocated
        cases isHost : uri.host with
        | master =>
            rw [isHost] at same isHeld
            cases same
            exact isHeld
        | worker node =>
            rw [isHost] at same
            cases same
  · simp only [COMPSsMaster.hostAttempts, mem_filterMap] at isHost
    obtain ⟨host, -, isAttempt⟩ := isHost
    cases host with
    | master => cases isAttempt
    | worker node => cases isAttempt

theorem sound_master_obtainData
    (isTarget : order.target.getURIInHost .master = some target)
    (sound : ordered.Sound surroundings target.path) :
    (COMPSsMaster.obtainData surroundings order target.path ordered).Sound
      surroundings target.path := by
  unfold COMPSsMaster.obtainData
  split
  case h_1 loc found =>
      obtain ⟨member, isPersistent⟩ :=
        LogicalData.persistentLocation_eq_some found
      refine sound.notifyEnd (.inr (sound.keeps _ ?_)) (.inl rfl)
      exact (trusted.persistent loc member isPersistent).1
  case h_2 =>
      split
      case isTrue inMemory =>
          unfold COMPSsMaster.serialize
          rw [if_pos (trusted.serialized inMemory)]
          refine ((sound.store _).addLocation order).notifyEnd (.inl ?_)
            (.inl rfl)
          simp [Ordered.store]
      case isFalse =>
          have locked : ordered.lockHostRemoval.Sound surroundings target.path :=
            ⟨sound.keeps, sound.there, sound.requests, sound.aimed⟩
          have tried :
              (COMPSsMaster.tryInOrder surroundings order target.path
                ordered.lockHostRemoval
                (COMPSsMaster.attempts surroundings order)).Sound
                  surroundings target.path := by
            refine COMPSsMaster.tryInOrder_preserves
              (·.Sound surroundings target.path) ?_ locked
            intro attempt member before soundBefore
            cases attempt with
            | copyFile sourcePath addsLocation =>
                exact sound_copyFile
                  (sourceHolds_of_mem_attempts trusted member) addsLocation
                  soundBefore
            | sendData node =>
                exact sound_sendData trusted isTarget soundBefore node
          exact ⟨tried.keeps, tried.there, tried.requests, tried.aimed⟩

variable {path : String}

theorem sound_orderStorageCopy
    {loc : DataLocation}
    (found : order.ld.persistentLocation = some loc)
    (sound : ordered.Sound surroundings path)
    (noRequest : ordered.requests = [])
    (host : COMPSsNode) :
    (orderStorageCopy surroundings order ordered host).Sound
      surroundings path := by
  obtain ⟨member, isPersistent⟩ :=
    LogicalData.persistentLocation_eq_some found
  unfold orderStorageCopy
  split
  · unfold newReplica
    split
    · refine sound.notifyEnd (.inr (sound.keeps _ ?_)) (.inr noRequest)
      exact (trusted.persistent loc member isPersistent).2
    · exact sound.notifyFailure
  · unfold newVersion
    split
    · exact sound.notifyFailure
    · refine (sound.store _).notifyEnd (.inr ?_) (.inr noRequest)
      simp [Ordered.store]

theorem sound_receivedValue
    (sound : ordered.Sound surroundings path)
    {request : MasterDataRequest}
    (member : request ∈ ordered.requests) :
    (ordered.receivedValue order request).Sound surroundings path := by
  have isKept : (!order.isObject || order.tgtData.isSome) = true := by
    cases isObject : order.isObject with
    | true => simpa using trusted.kept isObject
    | false => rfl
  unfold Ordered.receivedValue
  simp only [isKept, Bool.true_or, sound.requests request member]
  have stored := sound.store (.file .master path)
  refine ((stored.addLocation order).finishRequest request).notifyThere ?_
  rcases sound.aimed (ne_nil_of_mem member) with isTarget | isThere
  · simp [Ordered.isThere, Ordered.finishRequest, isTarget, Ordered.store]
  · have stillThere := Sound.isThere_store isThere (.file .master path)
    simpa [Ordered.isThere, Ordered.finishRequest] using stillThere

theorem sound_next
    (sound : ordered.Sound surroundings path)
    {answer : Answer}
    (enabled : ordered.Enabled answer) :
    (ordered.next order answer).Sound surroundings path := by
  cases answer with
  | receivedValue request => exact sound_receivedValue trusted sound enabled
  | handleRequestedDataNotAvailableError request =>
      exact (sound.finishRequest request).notifyFailure
  | copiedData =>
      obtain ⟨located, copied⟩ := ordered.copiedData_eq order
      rw [Ordered.next, copied]
      exact ⟨sound.keeps, sound.there, sound.requests, sound.aimed⟩

end Trusted

/-!
## The lock against host removal
-/

theorem hostRemovalLocks_sendData
    (surroundings : Surroundings)
    (order : Order)
    (ordered : Ordered)
    (node : Nat) :
    (sendData surroundings order
      ordered node).1.hostRemovalLocks = ordered.hostRemovalLocks := by
  unfold sendData
  split
  · rfl
  · dsimp only
    split
    · rfl
    · split <;> rfl

theorem hostRemovalLocks_worker_obtainData
    (surroundings : Surroundings)
    (order : Order)
    (ordered : Ordered)
    (node : Nat) :
    (obtainData surroundings order
      ordered node).hostRemovalLocks = ordered.hostRemovalLocks := by
  unfold obtainData
  split
  · unfold orderStorageCopy newReplica
      newVersion
    split <;> split <;> rfl
  · rfl

/-- The lock is taken before the first attempt and released after the last. -/
theorem hostRemovalLocks_master_obtainData
    (surroundings : Surroundings)
    (order : Order)
    (targetPath : String)
    (ordered : Ordered) :
    (COMPSsMaster.obtainData surroundings order targetPath
      ordered).hostRemovalLocks = ordered.hostRemovalLocks := by
  unfold COMPSsMaster.obtainData
  split
  · rfl
  · split
    · unfold COMPSsMaster.serialize
      split <;> exact hostRemovalLocks_addLocation _ order
    · have locked :
          (COMPSsMaster.tryInOrder surroundings order targetPath
            ordered.lockHostRemoval
            (COMPSsMaster.attempts surroundings order)).hostRemovalLocks =
              ordered.hostRemovalLocks + 1 := by
        refine COMPSsMaster.tryInOrder_preserves
          (·.hostRemovalLocks = ordered.hostRemovalLocks + 1) ?_ rfl
        intro attempt _ before kept
        refine Eq.trans ?_ kept
        cases attempt with
        | copyFile sourcePath addsLocation =>
            unfold COMPSsMaster.Attempt.run
            dsimp only
            split
            · split
              · exact hostRemovalLocks_addLocation _ order
              · rfl
            · rfl
        | sendData node =>
            exact hostRemovalLocks_sendData surroundings order before node
      simp [Ordered.releaseHostRemoval, locked]

/-!
## Calls
-/

namespace Call

/-- The worker of the target fetches the data itself. -/
def IsDeferred : Call → Prop
  | .masterObtainData _ _ _ => False
  | .workerObtainData _ order => order.ld.persistentLocation = none
  | .workerSendData _ order => order.target.getURIInHost .master = none

variable (surroundings : Surroundings)

/--
One of the ways to get the data succeeds, and no worker has raised an exception
after it had started a copy.
-/
def HasAlternative : Call → Prop
  | .masterObtainData order target _ =>
      order.ld.persistentLocation.isSome ∨ order.ld.isInMemory = true ∨
        ((∃ attempt ∈ COMPSsMaster.attempts surroundings order,
          attempt.Succeeds surroundings order target.path) ∧
          ∀ node, surroundings.sends node ≠ .raisedAfterStart)
  | .workerObtainData _ _ => True
  | .workerSendData node order =>
      order.target.getURIInHost .master = none ∨
        NIOWorkerNode.CanSend surroundings order node

variable
  {call : Call}
  {surroundings}

theorem answers_run
    (hasAlternative : call.HasAlternative surroundings) :
    (call.run surroundings).answers = 1 := by
  cases call with
  | masterObtainData order target isTarget =>
      rw [Call.run, COMPSsMaster.obtainData]
      split
      case h_1 => rfl
      case h_2 notPersistent =>
          split
          case isTrue =>
              unfold COMPSsMaster.serialize
              split <;> simp <;> rfl
          case isFalse notInMemory =>
              have attempted :=
                (hasAlternative.resolve_left (by simp [notPersistent])).resolve_left
                  notInMemory
              rw [answers_releaseHostRemoval,
                COMPSsMaster.answers_tryInOrder isTarget attempted.2 attempted.1]
              rfl
  | workerObtainData node order =>
      exact answers_obtainData surroundings order _ node
  | workerSendData node order =>
      rcases hasAlternative with notMaster | canSend
      · have deferred :
            sendData surroundings order (.new surroundings) node =
              (orderCopy order (.new surroundings), true) := by
          simp [sendData, notMaster]
        rw [Call.run, deferred]
        exact answers_orderCopy order _
      · exact (answers_sendData_of_canSend surroundings order _
          canSend).1

theorem hostRemovalLocks_run (surroundings : Surroundings) (call : Call) :
    (call.run surroundings).hostRemovalLocks = 0 := by
  cases call with
  | masterObtainData order target isTarget =>
      exact hostRemovalLocks_master_obtainData surroundings order _ _
  | workerObtainData node order =>
      exact hostRemovalLocks_worker_obtainData surroundings order _ node
  | workerSendData node order =>
      exact hostRemovalLocks_sendData surroundings order _ node

theorem sound_run
    (trusted : Trusted surroundings call.order)
    (notDeferred : ¬ call.IsDeferred) :
    ∃ path, (call.run surroundings).Sound surroundings path := by
  cases call with
  | masterObtainData order target isTarget =>
      exact ⟨target.path, sound_master_obtainData trusted isTarget Sound.new⟩
  | workerObtainData node order =>
      obtain ⟨loc, found⟩ := Option.ne_none_iff_exists'.mp notDeferred
      refine ⟨"", ?_⟩
      rw [Call.run, obtainData, found]
      exact sound_orderStorageCopy trusted found Sound.new rfl _
  | workerSendData node order =>
      obtain ⟨target, isTarget⟩ := Option.ne_none_iff_exists'.mp notDeferred
      exact ⟨target.path, sound_sendData trusted isTarget Sound.new node⟩

end Call

/-- The end of a deferred copy: the worker knows where to fetch the data. -/
structure Ordered.EndsDeferred (ld : LogicalData) (ordered : Ordered) :
    Prop where
  reports : ∃ isThere, ordered.reports = [.notifyEnd isThere]
  requests : ordered.requests = []
  dataSource : ordered.dataSource = ld.getURIs
  dataTarget : ordered.dataTarget.isSome

theorem endsDeferred_orderCopy
    (surroundings : Surroundings)
    (order : Order) :
    (orderCopy order (.new surroundings)).EndsDeferred
      order.ld :=
  ⟨⟨_, rfl⟩, rfl, rfl, rfl⟩

theorem Call.endsDeferred_run
    {surroundings : Surroundings}
    {call : Call}
    (isDeferred : call.IsDeferred) :
    (call.run surroundings).EndsDeferred call.order.ld := by
  cases call with
  | masterObtainData order target isTarget => exact isDeferred.elim
  | workerObtainData node order =>
      have notPersistent : order.ld.persistentLocation = none := isDeferred
      rw [Call.run, obtainData, notPersistent]
      exact endsDeferred_orderCopy surroundings order
  | workerSendData node order =>
      have notMaster : order.target.getURIInHost .master = none := isDeferred
      rw [Call.run, sendData, notMaster]
      exact endsDeferred_orderCopy surroundings order

theorem Ordered.EndsDeferred.next
    {ordered : Ordered}
    (endsDeferred : ordered.EndsDeferred ld)
    (order : Order)
    {answer : Answer}
    (enabled : ordered.Enabled answer) :
    (ordered.next order answer).EndsDeferred ld := by
  cases answer with
  | receivedValue _ | handleRequestedDataNotAvailableError _ =>
      simp [Ordered.Enabled, endsDeferred.requests] at enabled
  | copiedData =>
      obtain ⟨located, copied⟩ := ordered.copiedData_eq order
      rw [Ordered.next, copied]
      exact ⟨endsDeferred.reports, endsDeferred.requests,
        endsDeferred.dataSource, endsDeferred.dataTarget⟩

/-!
## Runs
-/

/--
What a call and its copies lead to.  The end of a deferred copy says that the
worker has been told where the data are; every other end says that they are at
the target.
-/
structure Call.Settles
    (surroundings : Surroundings)
    (call : Call)
    (ordered : Ordered) : Prop where
  released : ordered.hostRemovalLocks = 0
  once :
    call.HasAlternative surroundings →
      ordered.reports.length + ordered.requests.length = 1
  deferred : call.IsDeferred → ordered.EndsDeferred call.order.ld
  there :
    ¬ call.IsDeferred → Trusted surroundings call.order →
      ∀ report ∈ ordered.reports, report ≠ .notifyEnd false

/-- The data are in a file of the first worker; nothing fails. -/
def fileOnWorker : Surroundings where
  holds place := place = .file (.worker 1) "/tmp/d1v1"
  serializes := true
  copies _ _ := true
  sends _ := .returned
  hostOrder := id
  hostOrder_perm _ := .rfl
  getLocations := true
  newVersion := none

def workerFile : LogicalData where
  name := "d1v1"
  id := ""
  locations := [⟨.PRIVATE, "/tmp/d1v1", [⟨.worker 1, "/tmp/d1v1"⟩]⟩]
  isInMemory := false
  copiesInProgress := []

/-- The copy of the file on a host -/
def copyTo (host : COMPSsNode) : Order where
  ld := workerFile
  source := none
  target := ⟨.PRIVATE, "/tmp/copy", [⟨host, "/tmp/copy"⟩]⟩
  hasHost := by simp
  tgtData := some "d1v1"
  isObject := false

def copyToMaster : Call :=
  .masterObtainData (copyTo .master) ⟨.master, "/tmp/copy"⟩ rfl

theorem trusted_copyToMaster :
    Trusted fileOnWorker copyToMaster.order where
  located := by decide
  persistent := by decide
  source := by decide
  serialized := by decide
  finished := by simp [copyToMaster, Call.order, copyTo, workerFile]
  kept := by decide

end DistributedRdf.Comm
