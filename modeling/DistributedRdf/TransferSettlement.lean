import DistributedRdf.TransferSlots
import Mathlib.Data.List.Nodup

namespace DistributedRdf.Nio

open Java Execution List Outcome Option AgentCall

/-!
# Settlement of the transfer requests

A request is settled when a subclass has been told that its data was received or
is not available.  Until then its data is about to be transferred.
-/

/-- The requests that a call settles -/
def AgentCall.settles : AgentCall → List DataRequest
  | .receivedValue _ achievedRequests => achievedRequests
  | .handleRequestedDataNotAvailableError failedRequests _ => failedRequests
  | .handleDataToSendNotAvailable _ => []
  | .shutdown _ => []

namespace NIOAgent

variable
  {slots : Slots}
  {surroundings : Surroundings}
  {agent : NIOAgent}
  (calls : List AgentCall)

def settled : List DataRequest :=
  calls.flatMap (·.settles)

variable (agent)

def registeredRequests (name : String) : List DataRequest :=
  (agent.dataToRequests name).getD []

/-- The data with a transfer that goes on or waits for a slot -/
def activeNames : List String :=
  agent.pendingRequests.map (·.source.name) ++
    agent.ongoingTransfers.map (·.2)

/-- The different targets of some requests -/
def targets (requests : List DataRequest) : List String :=
  (groupByTarget requests).map (·.1)

/--
Either there is one target, or the data arrives at one of the targets and can be
replicated for the others.  Of files only one copy can be made.
-/
def Replicable
    (surroundings : Surroundings)
    (t : Transfer)
    (dataId : String)
    (requests : List DataRequest) : Prop :=
  (targets requests).length = 1 ∨
    (t.isFile ∧ t.fileName ∈ targets requests ∧
      (targets requests).length = 2 ∧
      ∀ other ∈ targets requests, other ≠ t.fileName →
        surroundings.copies other) ∨
    (¬t.isFile ∧ dataId ∈ targets requests ∧ surroundings.deserializes)

/-! ## Requests by target -/

variable
  (byTarget : List (String × List DataRequest))
  (req : DataRequest)

theorem addToTarget_requests :
    ((addToTarget byTarget req).flatMap (·.2)).Perm
      (byTarget.flatMap (·.2) ++ [req]) := by
  induction byTarget with
  | nil => rfl
  | cons entry rest hypothesis =>
      rcases entry with ⟨target, sameTarget⟩
      rw [addToTarget]
      by_cases same : target = req.target
      · rw [if_pos same, flatMap_cons, flatMap_cons,
          append_assoc, append_assoc]
        exact perm_append_comm.append_left sameTarget
      · rw [if_neg same, flatMap_cons, flatMap_cons,
          append_assoc]
        exact hypothesis.append_left sameTarget

theorem addToTarget_targets :
    (addToTarget byTarget req).map (·.1) =
      if req.target ∈ byTarget.map (·.1) then byTarget.map (·.1)
      else byTarget.map (·.1) ++ [req.target] := by
  induction byTarget with
  | nil => rfl
  | cons entry rest hypothesis =>
      rcases entry with ⟨target, sameTarget⟩
      rw [addToTarget]
      by_cases same : target = req.target
      · simp [same]
      · have different : req.target ≠ target := Ne.symm same
        by_cases known : req.target ∈ rest.map (·.1)
        · have stillKnown : req.target ∈ target :: rest.map (·.1) :=
            mem_cons_of_mem _ known
          simp only [if_neg same, map_cons, hypothesis,
            if_pos known, if_pos stillKnown]
        · have unknown : req.target ∉ target :: rest.map (·.1) := by
            simp only [mem_cons, not_or]
            exact ⟨different, known⟩
          simp only [if_neg same, map_cons, hypothesis,
            if_neg known, if_neg unknown, cons_append]

/-- Grouping neither loses nor repeats a request. -/
theorem groupByTarget_requests (requests : List DataRequest) :
    ((groupByTarget requests).flatMap (·.2)).Perm requests := by
  have grouped : ∀ byTarget : List (String × List DataRequest),
      ((requests.foldl addToTarget byTarget).flatMap (·.2)).Perm
        (byTarget.flatMap (·.2) ++ requests) := by
    induction requests with
    | nil =>
        intro byTarget
        rw [foldl_nil, append_nil]
    | cons req rest hypothesis =>
        intro byTarget
        calc
          ((rest.foldl addToTarget (addToTarget byTarget req)).flatMap
              (·.2)).Perm
              ((addToTarget byTarget req).flatMap (·.2) ++ rest) :=
            hypothesis _
          List.Perm _ (byTarget.flatMap (·.2) ++ [req] ++ rest) :=
            (addToTarget_requests byTarget req).append_right rest
          List.Perm _ (byTarget.flatMap (·.2) ++ req :: rest) := by
            rw [append_assoc, singleton_append]
  exact grouped []

theorem targets_nodup (requests : List DataRequest) :
    (targets requests).Nodup := by
  have grouped : ∀ byTarget : List (String × List DataRequest),
      (byTarget.map (·.1)).Nodup →
        ((requests.foldl addToTarget byTarget).map (·.1)).Nodup := by
    induction requests with
    | nil => exact fun _ distinct => distinct
    | cons req rest hypothesis =>
        intro byTarget distinct
        apply hypothesis
        rw [addToTarget_targets]
        by_cases known : req.target ∈ byTarget.map (·.1)
        · rw [if_pos known]
          exact distinct
        · rw [if_neg known]
          rw [← concat_eq_append]
          exact List.Nodup.concat known distinct
  exact grouped [] nodup_nil

/-! ## What a reception settles -/

/-- One call for each target -/
def valuesReceived (entries : List (String × List DataRequest)) :
    List AgentCall :=
  entries.map fun entry => .receivedValue entry.1 entry.2

def callAll : NIOAgent :=
  { agent with calls := agent.calls ++ calls }

variable
  {t : Transfer}
  {agent}

/-- Objects are deserialized for one target after the other. -/
theorem replicate_objects
    (isObject : ¬t.isFile)
    (deserializes : surroundings.deserializes)
    (entries : List (String × List DataRequest)) :
    replicate surroundings t agent entries =
      .returned (agent.callAll (valuesReceived entries)) () := by
  induction entries generalizing agent with
  | nil => simp [replicate, callAll, valuesReceived]
  | cons entry entries hypothesis =>
      rcases entry with ⟨targetName, reqs⟩
      rw [replicate, if_neg isObject, if_pos deserializes, receivedValue,
        andThen_returned, hypothesis]
      simp [callAll, call, valuesReceived]

/-- One file is copied. -/
theorem replicate_file
    (isFile : t.isFile)
    {entry : String × List DataRequest}
    (copies : surroundings.copies entry.1) :
    replicate surroundings t agent [entry] =
      .returned (agent.callAll (valuesReceived [entry])) () := by
  rcases entry with ⟨targetName, reqs⟩
  rw [replicate, if_pos isFile, if_pos copies, receivedValue,
    andThen_returned, if_pos rfl]
  rfl

variable
  {requests : List DataRequest}
  {target : String}

/-- The targets and their requests, one target taken out -/
theorem groupByTarget_split
    (isTarget : target ∈ targets requests) :
    ∃ achieved,
      (groupByTarget requests).lookup target = some achieved ∧
        (groupByTarget requests).Perm
          ((target, achieved) ::
            otherTargets target (groupByTarget requests)) := by
  have present : ((groupByTarget requests).lookup target).isSome := by
    rcases mem_map.mp isTarget with ⟨entry, isEntry, same⟩
    rw [lookup_isSome_iff]
    exact ⟨entry, isEntry, by simp [same]⟩
  rcases isSome_iff_exists.mp present with ⟨achieved, found⟩
  exact ⟨achieved, found, perm_of_lookup (targets_nodup requests) found⟩

/-- The calls for one target and then for the others settle every request. -/
theorem settles_targets
    {requests achieved : List DataRequest}
    {others : List (String × List DataRequest)}
    (split : (groupByTarget requests).Perm ((target, achieved) :: others))
    (ordered : List (String × List DataRequest))
    (order : ordered.Perm others) :
    (settled
      (.receivedValue target achieved :: valuesReceived ordered)).Perm
        requests := by
  have calls : settled (valuesReceived ordered) = ordered.flatMap (·.2) := by
    rw [settled, valuesReceived, flatMap_map]
    rfl
  calc
    (settled
      (.receivedValue target achieved :: valuesReceived ordered)).Perm
        (achieved ++ ordered.flatMap (·.2)) := by
      rw [← calls]
      rfl
    List.Perm _ (((target, achieved) :: others).flatMap (·.2)) :=
      (order.flatMap_right _).append_left achieved
    List.Perm _ ((groupByTarget requests).flatMap (·.2)) :=
      (split.flatMap_right _).symm
    List.Perm _ requests :=
      groupByTarget_requests requests

variable {dataId : String}

/-- A replicable reception settles each of the requests once. -/
theorem achieve_replicable
    (replicable : Replicable surroundings t dataId requests) :
    ∃ calls : List AgentCall,
      agent.achieve surroundings dataId t requests =
          .returned (agent.callAll calls) () ∧
        (settled calls).Perm requests := by
  by_cases single : (targets requests).length = 1
  · rw [targets, length_map, length_eq_one_iff] at single
    rcases single with ⟨⟨targetName, sameTarget⟩, grouped⟩
    refine ⟨[.receivedValue targetName requests], ?_, ?_⟩
    · simp only [achieve, grouped]
      rfl
    · simp [settled, settles]
  · have several : ∀ targetName sameTarget,
        groupByTarget requests ≠ [(targetName, sameTarget)] := by
      intro targetName sameTarget grouped
      exact single (by rw [targets, grouped]; rfl)
    have achieves : agent.achieve surroundings dataId t requests =
        (agent.receivedValue (if t.isFile then t.fileName else dataId)
          ((groupByTarget requests).lookup
            (if t.isFile then t.fileName else dataId))).andThen
          fun agent _ =>
            replicate surroundings t agent
              (surroundings.entryOrder
                (otherTargets (if t.isFile then t.fileName else dataId)
                  (groupByTarget requests))) := by
      unfold achieve
      split
      · next grouped => exact absurd grouped (several _ _)
      · rfl
    rcases replicable with one | file | object
    · exact absurd one single
    · rcases file with ⟨isFile, isTarget, two, copies⟩
      rcases groupByTarget_split isTarget with ⟨achieved, found, split⟩
      have oneOther :
          (otherTargets t.fileName (groupByTarget requests)).length = 1 := by
        have count := split.length_eq
        rw [targets, length_map] at two
        rw [two, length_cons] at count
        omega
      rcases length_eq_one_iff.mp oneOther with ⟨other, others⟩
      have order :
          surroundings.entryOrder
              (otherTargets t.fileName (groupByTarget requests)) =
            [other] := by
        have arranged := surroundings.entryOrder_perm [other]
        rw [others]
        exact perm_singleton.mp arranged
      have isOther :
          other ∈ otherTargets t.fileName (groupByTarget requests) := by
        rw [others]
        exact mem_singleton_self other
      have copied : surroundings.copies other.1 := by
        rcases mem_filter.mp isOther with ⟨isEntry, different⟩
        exact copies other.1 (mem_map_of_mem isEntry)
          (by simpa using different)
      refine ⟨_, ?_, settles_targets split [other] (by rw [others])⟩
      rw [achieves]
      simp only [isFile, if_true, found, order, receivedValue,
        andThen_returned, replicate_file isFile copied]
      simp [callAll, call]
    · rcases object with ⟨isObject, isTarget, deserializes⟩
      rcases groupByTarget_split isTarget with ⟨achieved, found, split⟩
      refine ⟨_, ?_,
        settles_targets split
          (surroundings.entryOrder
            (otherTargets dataId (groupByTarget requests)))
          (surroundings.entryOrder_perm _)⟩
      rw [achieves]
      simp only [if_neg isObject, found, receivedValue,
        andThen_returned, replicate_objects isObject deserializes]
      simp [callAll, call]

/-! ## Requests that wait for their data -/

/-- Every request is either registered or settled, and the data of a registered
one is about to be transferred. -/
structure Settling (agent : NIOAgent) : Prop where
  activeNodup : agent.activeNames.Nodup
  registered :
    ∀ name, name ∈ agent.activeNames ↔ agent.dataToRequests name ≠ none
  named :
    ∀ name, ∀ dr ∈ agent.registeredRequests name, dr.source.name = name
  accounted :
    ∀ dr, (settled agent.calls).count dr +
        (agent.registeredRequests dr.source.name).count dr =
      agent.submitted.count dr
  distinct : agent.submitted.Nodup
  numbered : ∀ dr ∈ agent.submitted, dr.id < agent.submitted.length

theorem Settling.congr
    {after : NIOAgent}
    (settling : Settling agent)
    (active : after.activeNames.Perm agent.activeNames)
    (registered : after.dataToRequests = agent.dataToRequests)
    (calls : settled after.calls = settled agent.calls)
    (submitted : after.submitted = agent.submitted) :
    Settling after := by
  have same : after.registeredRequests = agent.registeredRequests := by
    funext name
    rw [registeredRequests, registered, registeredRequests]
  exact {
    activeNodup := active.nodup_iff.mpr settling.activeNodup
    registered := by
      intro name
      rw [active.mem_iff, registered]
      exact settling.registered name
    named := by rw [same]; exact settling.named
    accounted := by rw [same, calls, submitted]; exact settling.accounted
    distinct := by rw [submitted]; exact settling.distinct
    numbered := by rw [submitted]; exact settling.numbered
  }

theorem Settling.demanded
    (settling : Settling agent)
    (accounts : IncomingAccounts slots agent)
    (starts : ∀ c, surroundings.startsConnection c)
    {dr : DataRequest}
    (uri : NIOURI)
    {rest : List DataRequest}
    (pending : agent.pendingRequests = dr :: rest) :
    Settling (agent.demanded surroundings dr uri rest) := by
  have ongoing := accounts.demanded_ongoing starts dr uri rest
  have remaining :
      (agent.demanded surroundings dr uri rest).pendingRequests = rest := by
    simp [NIOAgent.demanded, startTransfer, starts]
  apply settling.congr
  · rw [activeNames, ongoing, remaining, activeNames, pending, map_cons,
      map_cons, cons_append]
    exact perm_middle
  · simp [NIOAgent.demanded, startTransfer, starts]
  · simp [NIOAgent.demanded, startTransfer, starts]
  · simp [NIOAgent.demanded, startTransfer, starts]

theorem settled_shutdownIfReady :
    settled agent.shutdownIfReady.calls = settled agent.calls := by
  unfold shutdownIfReady
  split
  · simp [settled, call, settles]
  · rfl

theorem Settling.shutdownIfReady (settling : Settling agent) :
    Settling agent.shutdownIfReady := by
  apply settling.congr _ _ settled_shutdownIfReady
  all_goals
    unfold NIOAgent.shutdownIfReady
    split <;> rfl

/-- Afterwards a request only waits while all of the slots are in use. -/
theorem Settling.requestTransfers
    (settling : Settling agent)
    (accounts : IncomingAccounts slots agent)
    (starts : ∀ c, surroundings.startsConnection c) :
    ∃ after,
      agent.requestTransfers slots surroundings = .returned after () ∧
        (IncomingAccounts slots after ∧ Settling after) ∧
        (after.pendingRequests = [] ∨
          slots.MAX_RECEIVE_TRANSFERS ≤ after.receiveTransfers) := by
  have sourced : ∀ {agent},
      IncomingAccounts slots agent ∧ Settling agent →
        ∀ dr ∈ agent.pendingRequests, dr.source.sources ≠ [] :=
    fun holds => holds.1.sourced
  apply requestWithin_returns sourced _ _ (Nat.le_refl _) ⟨accounts, settling⟩
  intro agent dr rest uri holds pending free
  exact ⟨holds.1.demanded starts uri pending free,
    holds.2.demanded holds.1 starts uri pending⟩

/-- The agent after its calls for the requests of some data -/
def answered
    (agent : NIOAgent)
    (c : Connection)
    (dataId : String)
    (calls : List AgentCall) : NIOAgent :=
  { agent with
    ongoingTransfers :=
      agent.ongoingTransfers.filter fun entry => entry.1 ≠ c
    receiveTransfers := agent.receiveTransfers - 1
    dataToRequests := Function.update agent.dataToRequests dataId none
  }.callAll calls

theorem registeredRequests_answered
    (c : Connection)
    (dataId : String)
    (calls : List AgentCall)
    (name : String) :
    (agent.answered c dataId calls).registeredRequests name =
      if name = dataId then [] else agent.registeredRequests name := by
  by_cases same : name = dataId
  · simp [registeredRequests, answered, callAll, same]
  · simp [registeredRequests, answered, callAll, same]

/-- The requests of the data move to the settled ones. -/
theorem Settling.answered
    (settling : Settling agent)
    (accounts : IncomingAccounts slots agent)
    {c : Connection}
    {calls : List AgentCall}
    (found : agent.ongoingTransfers.lookup c = some dataId)
    (settles :
      (settled calls).Perm (agent.registeredRequests dataId)) :
    Settling (agent.answered c dataId calls) := by
  have active :
      agent.activeNames.Perm
        (dataId :: (agent.answered c dataId calls).activeNames) := by
    have split := (perm_of_lookup accounts.distinct found).map (·.2)
    exact (split.append_left _).trans perm_middle
  have distinct := active.nodup_iff.mp settling.activeNodup
  rw [nodup_cons] at distinct
  exact {
    activeNodup := distinct.2
    registered := by
      intro name
      by_cases same : name = dataId
      · subst name
        have removed :
            (agent.answered c dataId calls).dataToRequests dataId = none :=
          Function.update_self ..
        simp [distinct.1, removed]
      · have before := settling.registered name
        rw [active.mem_iff, mem_cons, or_iff_right same] at before
        rw [before]
        simp [NIOAgent.answered, callAll, same]
    named := by
      intro name dr isRegistered
      rw [registeredRequests_answered] at isRegistered
      by_cases same : name = dataId
      · simp [same] at isRegistered
      · rw [if_neg same] at isRegistered
        exact settling.named name dr isRegistered
    accounted := by
      intro dr
      have before := settling.accounted dr
      have counted := settles.count_eq dr
      have all : settled (agent.answered c dataId calls).calls =
          settled agent.calls ++ settled calls :=
        flatMap_append
      rw [all, count_append, counted, registeredRequests_answered]
      change _ = agent.submitted.count dr
      by_cases same : dr.source.name = dataId
      · rw [if_pos same, count_nil, ← before, same, Nat.add_zero]
      · have notNamed : dr ∉ agent.registeredRequests dataId :=
          fun isRegistered => same (settling.named dataId dr isRegistered)
        rw [if_neg same, count_eq_zero.mpr notNamed, ← before,
          Nat.add_zero]
    distinct := settling.distinct
    numbered := settling.numbered
  }

/-- An ended transfer whose requests are all answered -/
theorem Settling.endTransfer
    {answer : NIOAgent → String → List DataRequest → Outcome NIOAgent Unit}
    (settling : Settling agent)
    (accounts : IncomingAccounts slots agent)
    (starts : ∀ c, surroundings.startsConnection c)
    (c : Connection)
    (answers :
      ∀ served dataId requests,
        agent.ongoingTransfers.lookup c = some dataId →
          agent.dataToRequests dataId = some requests →
            ∃ calls : List AgentCall,
              answer served dataId requests =
                  .returned (served.callAll calls) () ∧
                (settled calls).Perm requests) :
    Settling (agent.endTransfer slots surroundings c answer).state := by
  unfold NIOAgent.endTransfer
  cases found : agent.ongoingTransfers.lookup c with
  | none => exact settling
  | some dataId =>
      have isActive : dataId ∈ agent.activeNames := by
        have split := (perm_of_lookup accounts.distinct found).map (·.2)
        rw [activeNames, mem_append, split.mem_iff]
        exact Or.inr mem_cons_self
      rcases ne_none_iff_exists'.mp
          ((settling.registered dataId).mp isActive) with
        ⟨requests, registered⟩
      have sameRequests : agent.registeredRequests dataId = requests := by
        rw [registeredRequests, registered, getD_some]
      have stillRegistered :
          ({ agent with
            ongoingTransfers :=
              agent.ongoingTransfers.filter fun entry => entry.1 ≠ c
          }.releaseReceiveSlot).dataToRequests dataId = some requests :=
        registered
      simp only [stillRegistered]
      rcases answers
          { ({ agent with
              ongoingTransfers :=
                agent.ongoingTransfers.filter fun entry => entry.1 ≠ c
            }.releaseReceiveSlot) with
            dataToRequests := Function.update agent.dataToRequests dataId none }
          dataId requests found registered with
        ⟨calls, answered, settles⟩
      have served : Settling (agent.answered c dataId calls) :=
        settling.answered accounts found (sameRequests ▸ settles)
      have servedAccounts :
          IncomingAccounts slots (agent.answered c dataId calls) :=
        (accounts.released found).congr rfl
      rcases served.requestTransfers servedAccounts starts with
        ⟨after, requested, holds, _⟩
      simp only [NIOAgent.answered, releaseReceiveSlot] at answered requested ⊢
      simp only [answered, andThen_returned, requested,
        state_returned]
      exact holds.2.shutdownIfReady

variable (dr : DataRequest)

theorem registeredRequests_addTransferRequest
    (name : String) :
    (agent.addTransferRequest dr).registeredRequests name =
      if name = dr.source.name then agent.registeredRequests name ++ [dr]
      else agent.registeredRequests name := by
  cases known : agent.dataToRequests dr.source.name with
  | none | some _ =>
      by_cases same : name = dr.source.name
      · simp [registeredRequests, addTransferRequest, known, same]
      · simp [registeredRequests, addTransferRequest, known, same]

/-- The data of a new request is active, once. -/
theorem Settling.active_addTransferRequest
    (settling : Settling agent)
    (dr : DataRequest) :
    (agent.addTransferRequest dr).activeNames.Nodup ∧
      ∀ name, name ∈ (agent.addTransferRequest dr).activeNames ↔
        (agent.addTransferRequest dr).dataToRequests name ≠ none := by
  cases known : agent.dataToRequests dr.source.name with
  | none =>
      have inactive : dr.source.name ∉ agent.activeNames := by
        rw [settling.registered]
        exact not_not_intro known
      have active :
          (agent.addTransferRequest dr).activeNames.Perm
            (dr.source.name :: agent.activeNames) := by
        simp only [addTransferRequest, known, activeNames, map_append,
          append_assoc]
        exact perm_middle
      constructor
      · rw [active.nodup_iff, nodup_cons]
        exact ⟨inactive, settling.activeNodup⟩
      · intro name
        rw [active.mem_iff, mem_cons, settling.registered]
        by_cases same : name = dr.source.name
        · simp [addTransferRequest, known, same]
        · simp [addTransferRequest, known, same]
  | some list =>
      have active : (agent.addTransferRequest dr).activeNames =
          agent.activeNames := by
        simp only [addTransferRequest, known, activeNames]
      rw [active]
      refine ⟨settling.activeNodup, fun name => ?_⟩
      rw [settling.registered]
      by_cases same : name = dr.source.name
      · simp [addTransferRequest, known, same]
      · simp [addTransferRequest, known, same]

theorem calls_addTransferRequest :
    (agent.addTransferRequest dr).calls = agent.calls := by
  unfold addTransferRequest
  split <;> rfl

theorem submit_eq
    (type : DataType)
    (source : Data)
    (target : String) :
    agent.submit type source target =
      { agent.addTransferRequest
          ⟨agent.submitted.length, type, source, target⟩ with
        submitted :=
          agent.submitted ++
            [⟨agent.submitted.length, type, source, target⟩] } := by
  cases known : agent.dataToRequests source.name with
  | none | some _ => simp only [submit, addTransferRequest, known]

theorem Settling.submit
    (settling : Settling agent)
    (type : DataType)
    (source : Data)
    (target : String) :
    Settling (agent.submit type source target) := by
  rw [submit_eq]
  generalize isRequest :
    DataRequest.mk agent.submitted.length type source target = dr
  have active := settling.active_addTransferRequest dr
  have registered := @registeredRequests_addTransferRequest agent dr
  have calls := @calls_addTransferRequest agent dr
  have new : dr ∉ agent.submitted := by
    intro isSubmitted
    have earlier := settling.numbered dr isSubmitted
    rw [← isRequest] at earlier
    exact Nat.lt_irrefl _ earlier
  exact {
    activeNodup := active.1
    registered := active.2
    named := by
      intro name other isRegistered
      change other ∈ (agent.addTransferRequest dr).registeredRequests name
        at isRegistered
      rw [registered] at isRegistered
      by_cases same : name = dr.source.name
      · rw [if_pos same, mem_append, mem_singleton] at isRegistered
        rcases isRegistered with earlier | isNew
        · exact settling.named name other earlier
        · rw [isNew, same]
      · rw [if_neg same] at isRegistered
        exact settling.named name other isRegistered
    accounted := by
      intro other
      have before := settling.accounted other
      change (settled (agent.addTransferRequest dr).calls).count other +
        ((agent.addTransferRequest dr).registeredRequests
          other.source.name).count other = _
      rw [calls, registered, count_append, ← before]
      by_cases same : other.source.name = dr.source.name
      · rw [if_pos same, count_append, Nat.add_assoc]
      · have different : dr ≠ other := fun isOther =>
          same (by rw [isOther])
        rw [if_neg same, count_singleton,
          if_neg (by simpa using different), Nat.add_zero]
    distinct := by
      rw [← concat_eq_append]
      exact List.Nodup.concat new settling.distinct
    numbered := by
      intro other isSubmitted
      rw [length_append, length_singleton]
      rcases mem_append.mp isSubmitted with earlier | isNew
      · exact Nat.lt_succ_of_lt (settling.numbered other earlier)
      · rw [mem_singleton.mp isNew, ← isRequest]
        exact Nat.lt_succ_self _
  }

end NIOAgent

/-! ## Runs -/

open NIOAgent

/--
Requested data can be reached, and what is received can be replicated for all of
the targets that ask for it.
-/
def AnswersAll (agent : NIOAgent) (event : AgentEvent) : Prop :=
  Connects agent event ∧
    match event with
    | .receivedData surroundings c t =>
        ∀ dataId requests,
          agent.ongoingTransfers.lookup c = some dataId →
            agent.dataToRequests dataId = some requests →
              Replicable surroundings t dataId requests
    | _ => True

/-- Each request is settled once, or it is registered and its data is active. -/
structure RequestsSettled (agent : NIOAgent) : Prop where
  once :
    ∀ dr ∈ agent.submitted,
      (settled agent.calls).count dr = 1 ∨
        (settled agent.calls).count dr = 0 ∧
          (agent.registeredRequests dr.source.name).count dr = 1 ∧
          dr.source.name ∈ agent.activeNames
  onlySubmitted : ∀ dr ∈ settled agent.calls, dr ∈ agent.submitted
  /-- Without transfers nothing is left to be settled. -/
  allAtRest :
    agent.pendingRequests = [] → agent.ongoingTransfers = [] →
      ∀ dr ∈ agent.submitted, (settled agent.calls).count dr = 1

/-- No request waits while a slot is free, once the transfers are requested. -/
def NoneStranded (slots : Slots) (agent : NIOAgent) : Prop :=
  ∀ surroundings : Surroundings,
    (∀ c, surroundings.startsConnection c) →
      let after := (agent.requestTransfers slots surroundings).state
      after.pendingRequests = [] ∨
        after.ongoingTransfers.length = slots.MAX_RECEIVE_TRANSFERS

variable
  {slots : Slots}
  {agent : NIOAgent}
  {event : AgentEvent}

section

variable (settling : Settling agent)

include settling

theorem NIOAgent.Settling.requestsSettled :
    RequestsSettled agent := by
  have once : ∀ dr ∈ agent.submitted,
      (settled agent.calls).count dr = 1 ∨
        (settled agent.calls).count dr = 0 ∧
          (agent.registeredRequests dr.source.name).count dr = 1 ∧
          dr.source.name ∈ agent.activeNames := by
    intro dr isSubmitted
    have total := settling.accounted dr
    rw [count_eq_one_of_mem settling.distinct isSubmitted] at total
    by_cases waits : dr ∈ agent.registeredRequests dr.source.name
    · have counted := count_pos_iff.mpr waits
      have known : agent.dataToRequests dr.source.name ≠ none := by
        intro unknown
        rw [registeredRequests, unknown] at waits
        exact absurd waits not_mem_nil
      refine Or.inr ⟨by omega, by omega, ?_⟩
      exact (settling.registered _).mpr known
    · rw [count_eq_zero.mpr waits] at total
      exact Or.inl total
  exact {
    once := once
    onlySubmitted := by
      intro dr isSettled
      have counted := count_pos_iff.mpr isSettled
      have total := settling.accounted dr
      exact count_pos_iff.mp (by omega)
    allAtRest := by
      intro nonePending noneOngoing dr isSubmitted
      rcases once dr isSubmitted with isSettled | ⟨_, _, active⟩
      · exact isSettled
      · rw [activeNames, nonePending, noneOngoing] at active
        exact absurd active not_mem_nil
  }

theorem NIOAgent.Settling.sendData
    (c : Connection)
    (d : DataToSend) :
    Settling (agent.sendData c d) := by
  unfold NIOAgent.sendData
  split
  · have nothing :
        settled (agent.call (.handleDataToSendNotAvailable c)).calls =
          settled agent.calls := by
      simp [settled, call, settles]
    exact settling.congr .rfl rfl nothing rfl
  · exact settling

theorem NIOAgent.Settling.dataDemand
    (c : Connection)
    (d : DataToSend) :
    Settling (agent.dataDemand slots c d) := by
  by_cases free : agent.sendTransfers < slots.MAX_SEND_TRANSFERS
  · simp only [NIOAgent.dataDemand, tryAcquireSendSlot, free, if_true]
    apply Settling.sendData
    exact settling.congr .rfl rfl rfl rfl
  · simp only [NIOAgent.dataDemand, tryAcquireSendSlot, free, if_false]
    exact settling.sendData c d

theorem NIOAgent.Settling.writeFinished
    (c : Connection) :
    Settling (agent.writeFinished c) := by
  unfold NIOAgent.writeFinished releaseSendSlot
  split
  · exact settling.congr .rfl rfl rfl rfl
  · apply Settling.shutdownIfReady
    exact settling.congr .rfl rfl rfl rfl

theorem NIOAgent.Settling.connectionFailed
    {surroundings : Surroundings}
    (accounts : IncomingAccounts slots agent)
    (starts : ∀ c, surroundings.startsConnection c)
    (c : Connection) :
    Settling (agent.connectionFailed slots surroundings c).state := by
  unfold NIOAgent.connectionFailed receivedRequestedDataNotAvailableError
  apply Settling.endTransfer _ _ starts c
  · intro served dataId requests _ _
    refine ⟨[.handleRequestedDataNotAvailableError requests dataId], rfl, ?_⟩
    simp [settled, settles]
  · exact settling.congr .rfl rfl rfl rfl
  · exact accounts.congr rfl

theorem NIOAgent.Settling.handle
    (accounts : IncomingAccounts slots agent)
    (permitted : AnswersAll agent event) :
    Settling (agent.handle slots event) := by
  cases event with
  | submit type source target => exact settling.submit type source target
  | requestTransfers surroundings =>
      rcases settling.requestTransfers accounts permitted.1 with
        ⟨after, returned, holds, _⟩
      rw [NIOAgent.handle, returned]
      exact holds.2
  | receivedData surroundings c t =>
      apply settling.endTransfer accounts permitted.1 c
      intro served dataId requests found registered
      exact achieve_replicable (permitted.2 dataId requests found registered)
  | receivedShutdown requester =>
      apply Settling.shutdownIfReady
      exact settling.congr .rfl rfl rfl rfl
  | dataDemand c d => exact settling.dataDemand c d
  | writeFinished c => exact settling.writeFinished c
  | connectionFailed surroundings c =>
      exact settling.connectionFailed accounts permitted.1 c

end

theorem settling_new (slots : Slots) : Settling (.new slots) where
  activeNodup := nodup_nil
  registered _ := by simp [activeNames, NIOAgent.new]
  named _ _ isRegistered := absurd isRegistered not_mem_nil
  accounted _ := rfl
  distinct := nodup_nil
  numbered _ isSubmitted := absurd isSubmitted not_mem_nil

structure NIOAgent.Consistent (slots : Slots) (agent : NIOAgent) : Prop where
  accounts : IncomingAccounts slots agent
  settling : Settling agent

theorem transfersConsistent_of_run
    {events : List AgentEvent}
    (run : Run (agentSystem slots) AnswersAll events agent) :
    Consistent slots agent :=
  run.invariant ⟨incomingAccounts_new slots, settling_new slots⟩
    fun _ _ consistent _ permitted =>
      ⟨consistent.accounts.handle permitted.1,
        consistent.settling.handle consistent.accounts permitted⟩

/--
In a run of such events every request is settled once, at the latest when the
transfers have ended, and none waits next to a free slot.
-/
theorem requestsSettled_of_run
    {events : List AgentEvent}
    (run : Run (agentSystem slots) AnswersAll events agent) :
    RequestsSettled agent ∧ NoneStranded slots agent := by
  have consistent := transfersConsistent_of_run run
  refine ⟨consistent.settling.requestsSettled, fun surroundings starts => ?_⟩
  rcases consistent.settling.requestTransfers consistent.accounts starts with
    ⟨after, returned, ⟨accounts, _⟩, nonePending | noSlot⟩
  · exact Or.inl (by rw [returned]; exact nonePending)
  · right
    have counted := accounts.receives
    have bounded := accounts.bounded
    rw [returned, state_returned]
    omega

theorem requestsSettled_of_run_twoTargets :
    let agent := (agentSystem ⟨1, 1⟩).after
      [submitFile "/tmp/a", submitFile "/tmp/b",
        .requestTransfers (.uniform true),
        .receivedData (.uniform true) 0 ⟨true, "/tmp/a"⟩]
    RequestsSettled agent ∧ NoneStranded ⟨1, 1⟩ agent := by
  apply requestsSettled_of_run
  apply run_of_executable
  refine ⟨⟨trivial, fun _ => cons_ne_nil _ _, trivial⟩,
    ⟨trivial, fun _ => cons_ne_nil _ _, trivial⟩,
    ⟨trivial, fun _ => rfl, trivial⟩, ⟨trivial, fun _ => rfl, ?_⟩, trivial⟩
  intro dataId requests found registered
  have isData : "d1v1" = dataId := some.inj found
  subst dataId
  have areRequests : _ = requests := some.inj registered
  subst requests
  exact Or.inr (Or.inl ⟨rfl, by decide, by decide, fun _ _ _ => rfl⟩)

/-- The surroundings of a reception whose file can not be copied -/
def Surroundings.targetExists : Surroundings :=
  { Surroundings.uniform true with copies := fun _ => false }

/-- A request whose target can not be written is neither received nor failed. -/
theorem not_requestsSettled_targetExists :
    let events :=
      [submitFile "/tmp/a", submitFile "/tmp/b",
        .requestTransfers (.uniform true),
        .receivedData .targetExists 0 ⟨true, "/tmp/a"⟩]
    Run (agentSystem ⟨1, 1⟩) anyStep events
        ((agentSystem ⟨1, 1⟩).after events) ∧
      ¬RequestsSettled ((agentSystem ⟨1, 1⟩).after events) := by
  constructor
  · apply run_of_executable
    simp [Executable, agentSystem, anyStep]
  · intro settled
    have second := settled.allAtRest (by decide) (by decide)
      ⟨1, .FILE_T, ⟨"d1v1", [⟨some "10.0.0.2", "/tmp/d1v1"⟩]⟩, "/tmp/b"⟩
      (by decide)
    exact absurd second (by decide)

end DistributedRdf.Nio
