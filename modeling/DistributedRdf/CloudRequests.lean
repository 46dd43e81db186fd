import DistributedRdf.CloudTypes

namespace DistributedRdf.Resources

open Execution Java Function CloudProvider List Option Outcome

/-!
# Requests of virtual machines

The cloud manager asks the best provider for a machine.  A provider counts its
machines from the moment that its connector is called; requests that have been
accepted are pending until they are confirmed or refused.
-/

structure ResourceCreationRequest where
  /-- The identity of the object -/
  id : Nat
  provider : String
  /-- The type of the resource that is requested -/
  requested : String
  /-- For each core the tasks of each implementation -/
  requestedSimultaneousTaskCount : List (List Nat)
  deriving DecidableEq

/-- The slots that a request promises to a core -/
def ResourceCreationRequest.coreSlots
    (rcr : ResourceCreationRequest)
    (coreId : Nat) :
    Nat :=
  ((rcr.requestedSimultaneousTaskCount[coreId]?).getD []).foldl max 0

/-- What a provider has for a description, past the check of its limit -/
structure CloudOffer where
  type : String
  /-- A `Float`, as a multiple of `Float.MIN_VALUE` -/
  value : Int
  simultaneousCounts : List (List Nat)
  deriving DecidableEq

/-- How a connector ends `turnON` -/
inductive ConnectorAnswer where
  | accepted
  | declined
  | thrown
  deriving DecidableEq

namespace CloudProvider

variable (provider : CloudProvider)

def turnON : CloudProvider :=
  { provider with currentVMCount := provider.currentVMCount + 1 }

/-- No machine is left below the limit, where `null` and `-1` are no limits. -/
def limitReached : Bool :=
  match provider.limitOfVMs with
  | none => false
  | some limit => limit ≠ -1 ∧ limit ≤ provider.currentVMCount

def getBestIncrease
    (offer : Option CloudOffer) :
    Option CloudOffer :=
  if provider.limitReached then none else offer

end CloudProvider

/-- `Float.MAX_VALUE`, as a multiple of `Float.MIN_VALUE` -/
def floatMaxValue : Int :=
  (2 ^ 24 - 1) * 2 ^ 253

/-- The arrays of slots have a place for each core. -/
structure CloudManager where
  /-- The keys of `providers`, in the order of its iteration -/
  providerNames : List String
  providers : String → CloudProvider
  VM2Provider : String → Option String
  pendingRequests : List ResourceCreationRequest
  pendingCoreCount : Nat → Int

namespace CloudManager

variable (manager : CloudManager)

def setProvider
    (provider : String)
    (changed : CloudProvider) :
    CloudManager :=
  { manager with
    providers := update manager.providers provider changed }

variable (offers : String → Option CloudOffer)

/-- One round of the loop for the cheapest offer -/
def betterOffer
    (best : Option (String × CloudOffer))
    (name : String) :
    Option (String × CloudOffer) :=
  match (manager.providers name).getBestIncrease (offers name) with
  | none => best
  | some offer =>
      if offer.value < (best.elim floatMaxValue fun found => found.2.value) then
        some (name, offer)
      else
        best

def bestOffer :
    Option (String × CloudOffer) :=
  manager.providerNames.foldl (manager.betterOffer offers) none

variable (rcr : ResourceCreationRequest)

def addPending :
    CloudManager :=
  { manager with
    pendingRequests := manager.pendingRequests ++ [rcr]
    pendingCoreCount := fun coreId =>
      manager.pendingCoreCount coreId + rcr.coreSlots coreId }

def removePending :
    CloudManager :=
  { manager with
    pendingRequests := manager.pendingRequests.erase rcr
    pendingCoreCount := fun coreId =>
      manager.pendingCoreCount coreId - rcr.coreSlots coreId }

def askForResources
    (id : Nat)
    (offers : String → Option CloudOffer)
    (answer : ConnectorAnswer) :
    CloudManager × Option ResourceCreationRequest :=
  match manager.bestOffer offers with
  | none => (manager, none)
  | some (name, offer) =>
      let rcr := {
        id := id
        provider := name
        requested := offer.type
        requestedSimultaneousTaskCount := offer.simultaneousCounts
      }
      let asked := manager.setProvider name (manager.providers name).turnON
      match answer with
      | .accepted => (asked.addPending rcr, some rcr)
      | .declined | .thrown => (asked, none)

def confirmedRequest
    (vmName type : String) :
    Outcome CloudManager Unit :=
  let confirmed :=
    { manager.removePending rcr with
      VM2Provider := update manager.VM2Provider vmName rcr.provider }
  ((confirmed.providers rcr.provider).createdVM vmName type).onState
    (confirmed.setProvider rcr.provider)

def refusedRequest :
    CloudManager :=
  (manager.removePending rcr).setProvider rcr.provider
    (manager.providers rcr.provider).refusedWorker

/-- `thrown` is what the connector throws in `terminate`. -/
def destroyResources
    (vmName type : String)
    (thrown : Option JavaException) :
    Outcome CloudManager Unit :=
  match manager.VM2Provider vmName with
  | none => .raised manager .nullPointer
  | some provider =>
      ((manager.providers provider).turnOff type thrown).onState
        (manager.setProvider provider)

/-- The slots of the pending requests are counted again. -/
def newCoreElementsDetected : CloudManager :=
  { manager with
    pendingCoreCount := fun coreId =>
      (manager.pendingRequests.map fun rcr => (rcr.coreSlots coreId : Int)).sum }

end CloudManager

/-!
## Runs of the cloud manager
-/

/-- The manager, and what has become of the requests. -/
structure CloudHistory where
  manager : CloudManager
  nextId : Nat
  /-- Requests of which the creation has not ended -/
  creating : List ResourceCreationRequest
  /-- The name and the provider of each machine that is alive -/
  alive : List (String × String)

inductive CloudEvent where
  | askForResources
      (offers : String → Option CloudOffer)
      (answer : ConnectorAnswer)
  | confirmedRequest (rcr : ResourceCreationRequest) (vmName type : String)
  | refusedRequest (rcr : ResourceCreationRequest)
  /-- The creation thread ends with an exception: `notifyFailure` -/
  | creationFailed (rcr : ResourceCreationRequest)
  | destroyResources
      (vmName provider type : String)
      (thrown : Option JavaException)
  | newCoreElementsDetected

namespace CloudHistory

variable (history : CloudHistory)

def Enabled : CloudEvent → Prop
  | .confirmedRequest rcr _ _ | .refusedRequest rcr | .creationFailed rcr =>
      rcr ∈ history.creating
  | .destroyResources vmName provider _ _ => (vmName, provider) ∈ history.alive
  | .askForResources _ _ | .newCoreElementsDetected => True

instance (history : CloudHistory) (event : CloudEvent) :
    Decidable (history.Enabled event) :=
  match event with
  | .confirmedRequest rcr _ _ | .refusedRequest rcr | .creationFailed rcr =>
      inferInstanceAs (Decidable (rcr ∈ history.creating))
  | .destroyResources vmName provider _ _ =>
      inferInstanceAs (Decidable ((vmName, provider) ∈ history.alive))
  | .askForResources _ _ | .newCoreElementsDetected => isTrue trivial

/-- A request that the connector does not accept creates nothing. -/
def next : CloudEvent → CloudHistory
  | .askForResources offers answer =>
      let (manager, requested) :=
        history.manager.askForResources history.nextId offers answer
      { history with
        manager := manager
        nextId := history.nextId + 1
        creating := history.creating ++ requested.toList }
  | .confirmedRequest rcr vmName type =>
      { history with
        manager := (history.manager.confirmedRequest rcr vmName type).state
        creating := history.creating.erase rcr
        alive := (vmName, rcr.provider) :: history.alive }
  | .refusedRequest rcr =>
      { history with
        manager := history.manager.refusedRequest rcr
        creating := history.creating.erase rcr }
  | .creationFailed rcr =>
      { history with creating := history.creating.erase rcr }
  | .destroyResources vmName provider type thrown =>
      { history with
        manager := (history.manager.destroyResources vmName type thrown).state
        alive := history.alive.erase (vmName, provider) }
  | .newCoreElementsDetected =>
      { history with manager := history.manager.newCoreElementsDetected }

end CloudHistory

/-- The providers as they are loaded -/
structure CloudSetup where
  providerNames : List String
  limitOfVMs : String → Option Int
  types : String → Finset String
  /-- The validator refuses negative limits, and `-1` stands for no limit. -/
  limitsValid :
    ∀ name limit, limitOfVMs name = some limit → -1 ≤ limit

namespace CloudHistory

variable (setup : CloudSetup)

def start : CloudHistory where
  manager := {
    providerNames := setup.providerNames
    providers := fun name => {
      name := name
      limitOfVMs := setup.limitOfVMs name
      typeManager := ⟨setup.types name, fun _ => none⟩
      currentVMCount := 0
    }
    VM2Provider := fun _ => none
    pendingRequests := []
    pendingCoreCount := fun _ => 0
  }
  nextId := 0
  creating := []
  alive := []

def system : TransitionSystem CloudHistory CloudEvent where
  start := start setup
  Enabled := Enabled
  next := next

instance (setup : CloudSetup) (history : CloudHistory) (event : CloudEvent) :
    Decidable ((system setup).Enabled history event) :=
  inferInstanceAs (Decidable (history.Enabled event))

/-- The creations and the machines of a provider -/
def machines (history : CloudHistory) (provider : String) : Nat :=
  history.creating.countP (·.provider = provider) +
    history.alive.countP (·.2 = provider)

/-- Every counter says what is created and what is alive. -/
structure Counted (history : CloudHistory) : Prop where
  machines :
    ∀ name, (history.manager.providers name).currentVMCount =
      history.machines name
  limited :
    ∀ name limit, (history.manager.providers name).limitOfVMs = some limit →
      limit ≠ -1 → (history.manager.providers name).currentVMCount ≤ limit
  requests : history.manager.pendingRequests = history.creating
  slots :
    ∀ coreId, history.manager.pendingCoreCount coreId =
      (history.creating.map fun rcr => (rcr.coreSlots coreId : Int)).sum

/-- Nothing that is asked of a connector goes wrong. -/
def WithoutFailures (history : CloudHistory) : CloudEvent → Prop
  | .askForResources offers answer =>
      history.manager.bestOffer offers = none ∨ answer = .accepted
  | .creationFailed _ => False
  | .destroyResources vmName provider type thrown =>
      history.manager.VM2Provider vmName = some provider ∧ thrown = none ∧
        ∀ vm, (history.manager.providers provider).typeManager.vmToType
            (history.manager.providers provider).name = some vm →
          type ∈ vm.types
  | .confirmedRequest .. | .refusedRequest _ | .newCoreElementsDetected => True

variable
  {history : CloudHistory}
  {rcr : ResourceCreationRequest}
  {vmName provider type : String}

/-! ## One step -/

variable
  {manager : CloudManager}
  {offers : String → Option CloudOffer}

/-- A provider that is asked has not reached its limit, and it makes an offer. -/
theorem betterOffer_spec
    {names : List String}
    {best : Option (String × CloudOffer)}
    (asked :
      ∀ found, best = some found →
        (manager.providers found.1).limitReached = false ∧
          offers found.1 = some found.2)
    {found : String × CloudOffer}
    (isFound : names.foldl (manager.betterOffer offers) best = some found) :
    (manager.providers found.1).limitReached = false ∧
      offers found.1 = some found.2 := by
  induction names generalizing best with
  | nil => exact asked found isFound
  | cons name rest hypothesis =>
      refine hypothesis ?_ isFound
      intro better isBetter
      unfold CloudManager.betterOffer getBestIncrease at isBetter
      by_cases reached : (manager.providers name).limitReached = true
      · rw [if_pos reached] at isBetter
        exact asked better isBetter
      · rw [if_neg reached] at isBetter
        cases offered : offers name with
        | none =>
            rw [offered] at isBetter
            exact asked better isBetter
        | some offer =>
            rw [offered] at isBetter
            dsimp only at isBetter
            split at isBetter
            · cases isBetter
              exact ⟨Bool.eq_false_of_not_eq_true reached, offered⟩
            · exact asked better isBetter

theorem bestOffer_spec
    {name : String}
    {offer : CloudOffer}
    (isBest : manager.bestOffer offers = some (name, offer)) :
    (manager.providers name).limitReached = false ∧
      offers name = some offer :=
  betterOffer_spec (fun _ isNone => absurd isNone (by simp)) isBest

/-- The creation of a request has ended. -/
theorem machines_erase_creating
    (isCreating : rcr ∈ history.creating)
    (name : String) :
    { history with creating := history.creating.erase rcr }.machines name +
        (if rcr.provider = name then 1 else 0) =
      history.machines name := by
  have split := (perm_cons_erase isCreating).countP_eq (·.provider = name)
  rw [countP_cons] at split
  simp only [machines, decide_eq_true_eq] at split ⊢
  omega

theorem slots_erase_creating
    (isCreating : rcr ∈ history.creating)
    (coreId : Nat) :
    ((history.creating.erase rcr).map fun other =>
        (other.coreSlots coreId : Int)).sum =
      (history.creating.map fun other => (other.coreSlots coreId : Int)).sum -
        rcr.coreSlots coreId := by
  have split := ((perm_cons_erase isCreating).map fun other =>
    (other.coreSlots coreId : Int)).sum_eq
  rw [map_cons, sum_cons] at split
  omega

theorem machines_erase_alive
    (isAlive : (vmName, provider) ∈ history.alive)
    (name : String) :
    { history with
        alive := history.alive.erase (vmName, provider) }.machines name +
        (if provider = name then 1 else 0) =
      history.machines name := by
  have split := (perm_cons_erase isAlive).countP_eq (·.2 = name)
  rw [countP_cons] at split
  simp only [machines, decide_eq_true_eq] at split ⊢
  omega

section

variable (counted : history.Counted)

include counted

theorem counted_askForResources_iff
    {answer : ConnectorAnswer} :
    (history.next (.askForResources offers answer)).Counted ↔
      history.WithoutFailures (.askForResources offers answer) := by
  cases isBest : history.manager.bestOffer offers with
  | none =>
      refine iff_of_true ?_ (.inl isBest)
      simp only [next, CloudManager.askForResources, isBest,
        toList_none, append_nil]
      exact ⟨counted.machines, counted.limited, counted.requests,
        counted.slots⟩
  | some found =>
      obtain ⟨name, offer⟩ := found
      have below := (bestOffer_spec isBest).1
      have different : ¬ (history.manager.bestOffer offers = none) := by
        simp [isBest]
      by_cases accepted : answer = .accepted
      · refine iff_of_true ?_ (.inr accepted)
        subst accepted
        simp only [next, CloudManager.askForResources, isBest]
        refine ⟨?machines, ?limited, ?requests, ?slots⟩
        case machines =>
          intro other
          have before := counted.machines other
          simp only [machines, CloudManager.addPending,
            CloudManager.setProvider, toList_some,
            countP_append, countP_singleton] at before ⊢
          by_cases same : other = name
          · subst same
            simp only [update_self, turnON]
            rw [before]
            simp
            omega
          · simp only [update_of_ne same, Ne.symm same]
            rw [before]
            simp
        case limited =>
          intro other limit isLimit bounded
          simp only [CloudManager.addPending, CloudManager.setProvider]
            at isLimit ⊢
          by_cases same : other = name
          · subst same
            simp only [update_self, turnON]
              at isLimit ⊢
            simp only [limitReached, isLimit, bounded, ne_eq,
              not_false_eq_true, true_and, decide_eq_false_iff_not, not_le]
              at below
            omega
          · simp only [update_of_ne same] at isLimit ⊢
            exact counted.limited other limit isLimit bounded
        case requests =>
          simp only [CloudManager.addPending, CloudManager.setProvider,
            toList_some, counted.requests]
        case slots =>
          intro coreId
          simp [CloudManager.addPending, CloudManager.setProvider,
            counted.slots coreId]
      · refine iff_of_false (fun asked => ?_) (not_or.mpr ⟨different, accepted⟩)
        have after := asked.machines name
        have before := counted.machines name
        have same : (history.next (.askForResources offers answer)).machines
            name = history.machines name := by
          cases answer with
          | accepted => exact absurd rfl accepted
          | declined | thrown =>
              simp [next, CloudManager.askForResources, isBest, machines]
        have counter :
            ((history.next (.askForResources offers answer)).manager.providers
              name).currentVMCount =
              (history.manager.providers name).currentVMCount + 1 := by
          cases answer with
          | accepted => exact absurd rfl accepted
          | declined | thrown =>
              simp [next, CloudManager.askForResources, isBest,
                CloudManager.setProvider, turnON]
        rw [counter, same] at after
        omega

omit counted in
theorem quota_createdVM (provider : CloudProvider) (vmName type : String) :
    (provider.createdVM vmName type).state.currentVMCount =
        provider.currentVMCount ∧
      (provider.createdVM vmName type).state.limitOfVMs =
        provider.limitOfVMs := by
  rw [createdVM, state_onState]
  exact ⟨rfl, rfl⟩

section

variable (isCreating : rcr ∈ history.creating)

include isCreating

theorem counted_confirmedRequest :
    (history.next (.confirmedRequest rcr vmName type)).Counted := by
  have manager :
      (history.next (.confirmedRequest rcr vmName type)).manager =
        { history.manager.removePending rcr with
          providers := update history.manager.providers rcr.provider
            ((history.manager.providers rcr.provider).createdVM vmName
              type).state
          VM2Provider := update history.manager.VM2Provider vmName
            rcr.provider } := by
    simp only [next, CloudManager.confirmedRequest, state_onState]
    rfl
  obtain ⟨sameCount, sameLimit⟩ :=
    quota_createdVM (history.manager.providers rcr.provider) vmName type
  have count : ∀ name,
      ((history.next (.confirmedRequest rcr vmName type)).manager.providers
          name).currentVMCount =
        (history.manager.providers name).currentVMCount ∧
      ((history.next (.confirmedRequest rcr vmName type)).manager.providers
          name).limitOfVMs =
        (history.manager.providers name).limitOfVMs := by
    intro name
    rw [manager]
    by_cases same : name = rcr.provider
    · subst same
      simp only [update_self]
      exact ⟨sameCount, sameLimit⟩
    · simp only [update_of_ne same]
      exact ⟨trivial, trivial⟩
  refine ⟨?machines, ?limited, ?requests, ?slots⟩
  case machines =>
    intro name
    rw [(count name).1, counted.machines name]
    have ended := machines_erase_creating isCreating name
    simp only [machines, next, countP_cons, decide_eq_true_eq]
      at ended ⊢
    omega
  case limited =>
    intro name limit isLimit bounded
    rw [(count name).2] at isLimit
    rw [(count name).1]
    exact counted.limited name limit isLimit bounded
  case requests =>
    rw [manager]
    exact congrArg (·.erase rcr) counted.requests
  case slots =>
    intro coreId
    rw [manager]
    exact (congrArg (· - (rcr.coreSlots coreId : Int))
      (counted.slots coreId)).trans (slots_erase_creating isCreating coreId).symm

theorem counted_refusedRequest :
    (history.next (.refusedRequest rcr)).Counted := by
  refine ⟨?machines, ?limited, ?requests, ?slots⟩
  case machines =>
    intro name
    have ended := machines_erase_creating isCreating name
    have before := counted.machines name
    simp only [next, CloudManager.refusedRequest, CloudManager.setProvider,
      CloudManager.removePending, machines] at ended before ⊢
    by_cases same : name = rcr.provider
    · subst same
      simp only [update_self, refusedWorker]
      rw [if_pos rfl] at ended
      omega
    · rw [if_neg (Ne.symm same)] at ended
      simp only [update_of_ne same]
      omega
  case limited =>
    intro name limit isLimit bounded
    simp only [next, CloudManager.refusedRequest, CloudManager.setProvider,
      CloudManager.removePending] at isLimit ⊢
    by_cases same : name = rcr.provider
    · subst same
      simp only [update_self, refusedWorker]
        at isLimit ⊢
      have before := counted.limited _ limit isLimit bounded
      omega
    · simp only [update_of_ne same] at isLimit ⊢
      exact counted.limited name limit isLimit bounded
  case requests => exact congrArg (·.erase rcr) counted.requests
  case slots =>
    intro coreId
    exact (congrArg (· - (rcr.coreSlots coreId : Int))
      (counted.slots coreId)).trans (slots_erase_creating isCreating coreId).symm

/-- The manager does not learn that a creation has failed. -/
theorem not_counted_creationFailed :
    ¬ (history.next (.creationFailed rcr)).Counted := by
  intro failed
  have requests : history.manager.pendingRequests =
      history.creating.erase rcr :=
    failed.requests
  have shorter := length_erase_add_one isCreating
  rw [← requests, counted.requests] at shorter
  omega

end

omit counted in
/-- A machine is only taken off the counter when nothing is thrown. -/
theorem quota_turnOff
    (cloudProvider : CloudProvider)
    (type : String)
    (thrown : Option JavaException) :
    (cloudProvider.turnOff type thrown).state.limitOfVMs =
        cloudProvider.limitOfVMs ∧
      ((thrown = none ∧
          ∀ vm, cloudProvider.typeManager.vmToType cloudProvider.name = some vm →
            type ∈ vm.types) ∧
          (cloudProvider.turnOff type thrown).state.currentVMCount =
            cloudProvider.currentVMCount - 1 ∨
        ¬ (thrown = none ∧
          ∀ vm, cloudProvider.typeManager.vmToType cloudProvider.name = some vm →
            type ∈ vm.types) ∧
          (cloudProvider.turnOff type thrown).state.currentVMCount =
            cloudProvider.currentVMCount) := by
  have returns : ∀ manager : CloudTypeManager,
      cloudProvider.typeManager.reduceVM cloudProvider.name type =
          .returned manager () →
        (cloudProvider.turnOff type thrown).state =
          { cloudProvider with
            typeManager := manager
            currentVMCount :=
              if thrown = none then cloudProvider.currentVMCount - 1
              else cloudProvider.currentVMCount } := by
    intro manager returned
    rw [turnOff, returned]
    cases thrown <;> rfl
  cases found :
      cloudProvider.typeManager.vmToType cloudProvider.name with
  | none =>
      rw [returns cloudProvider.typeManager (by
        rw [CloudTypeManager.reduceVM, found])]
      cases thrown <;> simp
  | some vm =>
      by_cases known : type ∈ vm.types
      · obtain ⟨manager, returned⟩ : ∃ manager,
            cloudProvider.typeManager.reduceVM cloudProvider.name type =
              .returned manager () := by
          rw [CloudTypeManager.reduceVM, found]
          dsimp only
          rw [if_pos known]
          split
          · exact ⟨_, rfl⟩
          · exact ⟨_, rfl⟩
        rw [returns manager returned]
        cases thrown <;> simp [known]
      · have raised : (cloudProvider.turnOff type thrown).state =
            { cloudProvider with
              typeManager :=
                { cloudProvider.typeManager with
                  vmToType := update cloudProvider.typeManager.vmToType
                    cloudProvider.name none } } := by
          rw [turnOff, CloudTypeManager.reduceVM, found]
          dsimp only
          rw [if_neg known]
          rfl
        rw [raised]
        simp [known]

theorem counted_destroyResources_iff
    {thrown : Option JavaException}
    (isAlive : (vmName, provider) ∈ history.alive) :
    (history.next (.destroyResources vmName provider type thrown)).Counted ↔
      history.WithoutFailures
        (.destroyResources vmName provider type thrown) := by
  have ended := machines_erase_alive isAlive
  cases registered : history.manager.VM2Provider vmName with
  | none =>
      refine iff_of_false (fun destroyed => ?_) fun success =>
        absurd (registered.symm.trans success.1) (by simp)
      have after := destroyed.machines provider
      have before := counted.machines provider
      have fewer := ended provider
      rw [if_pos rfl] at fewer
      simp only [next, CloudManager.destroyResources, registered,
        state_raised, machines] at after before fewer
      omega
  | some other =>
      have manager :
          (history.next
            (.destroyResources vmName provider type thrown)).manager =
              history.manager.setProvider other
                ((history.manager.providers other).turnOff type
                  thrown).state := by
        simp only [next, CloudManager.destroyResources, registered,
          state_onState]
      obtain ⟨sameLimit, effect⟩ :=
        quota_turnOff (history.manager.providers other) type thrown
      constructor
      · intro destroyed
        have after := destroyed.machines provider
        have before := counted.machines provider
        have fewer := ended provider
        rw [manager] at after
        rw [if_pos rfl] at fewer
        simp only [CloudManager.setProvider, next, machines]
          at after before fewer
        by_cases same : provider = other
        · subst same
          rw [update_self] at after
          rcases effect with ⟨success, -⟩ | ⟨-, sameCount⟩
          · exact ⟨registered, success⟩
          · omega
        · rw [update_of_ne same] at after
          omega
      · rintro ⟨isProvider, success⟩
        obtain rfl : other = provider :=
          some.inj (registered.symm.trans isProvider)
        have taken :
            ((history.manager.providers other).turnOff type
                thrown).state.currentVMCount =
              (history.manager.providers other).currentVMCount - 1 := by
          rcases effect with ⟨-, taken⟩ | ⟨failure, -⟩
          · exact taken
          · exact absurd success failure
        refine ⟨?machines, ?limited, ?requests, ?slots⟩
        case machines =>
          intro name
          have before := counted.machines name
          have fewer := ended name
          rw [manager]
          simp only [CloudManager.setProvider, next, machines]
            at before fewer ⊢
          by_cases same : name = other
          · subst same
            rw [update_self, taken]
            rw [if_pos rfl] at fewer
            omega
          · rw [update_of_ne same]
            rw [if_neg (Ne.symm same)] at fewer
            omega
        case limited =>
          intro name limit isLimit bounded
          rw [manager] at isLimit ⊢
          simp only [CloudManager.setProvider] at isLimit ⊢
          by_cases same : name = other
          · subst same
            rw [update_self] at isLimit ⊢
            have before := counted.limited name limit
              (sameLimit.symm.trans isLimit) bounded
            rw [taken]
            omega
          · rw [update_of_ne same] at isLimit ⊢
            exact counted.limited name limit isLimit bounded
        case requests =>
          rw [manager]
          exact counted.requests
        case slots =>
          rw [manager]
          exact counted.slots

theorem counted_next_iff
    {event : CloudEvent}
    (enabled : history.Enabled event) :
    (history.next event).Counted ↔ history.WithoutFailures event := by
  cases event with
  | askForResources offers answer => exact counted_askForResources_iff counted
  | confirmedRequest rcr vmName type =>
      exact iff_of_true (counted_confirmedRequest counted enabled) trivial
  | refusedRequest rcr =>
      exact iff_of_true (counted_refusedRequest counted enabled) trivial
  | creationFailed rcr =>
      exact iff_of_false (not_counted_creationFailed counted enabled) id
  | destroyResources vmName provider type thrown =>
      exact counted_destroyResources_iff counted enabled
  | newCoreElementsDetected =>
      refine iff_of_true ⟨counted.machines, counted.limited, counted.requests,
        fun coreId => ?_⟩ trivial
      simp only [next, CloudManager.newCoreElementsDetected, counted.requests]

end

/-! ## Runs -/

theorem counted_start : (start setup).Counted where
  machines := fun _ => rfl
  limited := by
    intro name limit isLimit bounded
    have valid := setup.limitsValid name limit isLimit
    change (0 : Int) ≤ limit
    omega
  requests := rfl
  slots := fun _ => rfl

/-- One provider with a place for one machine -/
def singlePlace : CloudSetup where
  providerNames := ["provider"]
  limitOfVMs := fun _ => some 1
  types := fun _ => {"small"}
  limitsValid := by
    intro name limit isLimit
    cases isLimit
    decide

def smallOffer : String → Option CloudOffer :=
  fun _ => some { type := "small", value := 1, simultaneousCounts := [[2]] }

/-- A machine that is created while another request finds no place -/
def renewed : List CloudEvent :=
  [.askForResources smallOffer .accepted,
    .confirmedRequest ⟨0, "provider", "small", [[2]]⟩ "vm" "small",
    .askForResources smallOffer .declined,
    .destroyResources "vm" "provider" "small" none,
    .askForResources smallOffer .accepted,
    .refusedRequest ⟨2, "provider", "small", [[2]]⟩]

/-- The connector declines the only place that there is. -/
def declinedOnce : List CloudEvent :=
  [.askForResources smallOffer .declined]

end CloudHistory

end DistributedRdf.Resources
