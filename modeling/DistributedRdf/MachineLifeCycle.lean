import DistributedRdf.VirtualMachines

namespace DistributedRdf.Connectors

open Java Engine Execution Resources AbstractConnector List TreeSet

/-!
# The life cycle of virtual machines

The collections of a connector are right as long as a machine is paused while
nobody has started its deletion, the sorted set compares a machine with the
others in the order in which they are stored, and the machine that the deadline
loop gives up is the first one in the list.
-/

/-- What the collections of a connector hold. -/
structure LifeCycle (connector : AbstractConnector) : Prop where
  alive :
    ∀ vm, vm ∈ connector.vmsAlive ↔
      vm < connector.created ∧ vm ∉ connector.expired ∧
        vm ∉ connector.destroyed
  aliveOnce : connector.vmsAlive.Nodup
  known :
    ∀ name vm, connector.IPToVM.lookup name = some vm ↔
      vm < connector.created ∧ (connector.vms vm).name = name ∧
        vm ∉ connector.destroyed
  /-- Those that are paused and neither reused nor given up. -/
  waiting :
    ∀ vm, vm ∈ connector.vmsToDelete ↔
      vm < connector.created ∧ (connector.vms vm).toDelete = true ∧
        vm ∉ connector.givenUp
  waitingOnce : connector.vmsToDelete.Nodup
  destroyedOnce : connector.destroyed.Nodup
  notReused : connector.lateReuses = []

variable (timeSlot : Int)

/-- The condition under which a step keeps the collections right. -/
def Permitted
    (connector : AbstractConnector) :
    ConnectorAction → Prop
  | .waitCreation name _ _ => connector.IPToVM.lookup name = none
  | .pause ip now clock =>
      ∀ vm ∈ connector.IPToVM.lookup ip,
        if (connector.vms vm).canBeSaved timeSlot now then
          vm ∉ connector.givenUp ∧
            if vm ∈ connector.vmsToDelete then
              TreeSet.Findable (connector.comparison clock)
                connector.vmsToDelete vm
            else
              TreeSet.Insertable (connector.comparison clock)
                connector.vmsToDelete vm
        else
          vm ∉ connector.deletions ∧ vm ∉ connector.vmsToDelete
  | .tryToReuseVM imageReq requested clock =>
      ∀ vm ∈ connector.reusable imageReq requested,
        TreeSet.Findable (connector.comparison clock) connector.vmsToDelete vm
  | .deadlinePass now clock =>
      ∀ vm ∈ connector.firstOverdue timeSlot now,
        connector.vmsAlive.head? = some vm ∧
          TreeSet.Findable (connector.comparison clock)
            connector.vmsToDelete vm
  | _ => True

instance Permitted.decidable
    (connector : AbstractConnector) :
    (action : ConnectorAction) →
      Decidable (Permitted timeSlot connector action)
  | .waitCreation .. => inferInstanceAs (Decidable (_ = _))
  | .pause .. => inferInstanceAs (Decidable (∀ vm ∈ _, ite _ _ _))
  | .tryToReuseVM .. =>
      inferInstanceAs (Decidable (∀ vm ∈ _, TreeSet.Findable _ _ _))
  | .deadlinePass .. => inferInstanceAs (Decidable (∀ vm ∈ _, _ ∧ _))
  | .vmReady .. => isTrue trivial
  | .creationFailed .. => isTrue trivial
  | .poweroff .. => isTrue trivial

/-- What the threads know of the machines, besides. -/
structure Consistent (connector : AbstractConnector) : Prop
    extends LifeCycle connector where
  preparingOnce : connector.preparing.Nodup
  prepared :
    ∀ vm, vm ∈ connector.preparing →
      vm < connector.created ∧ (connector.vms vm).toDelete = false ∧
        vm ∉ connector.givenUp
  deletionsOnce : connector.deletions.Nodup
  deleting :
    ∀ vm, vm ∈ connector.deletions →
      vm ∈ connector.givenUp ∧ vm ∉ connector.destroyed
  endedGivenUp : ∀ vm, vm ∈ connector.destroyed → vm ∈ connector.givenUp
  expiredGivenUp : ∀ vm, vm ∈ connector.expired → vm ∈ connector.givenUp
  givenUpCreated : ∀ vm, vm ∈ connector.givenUp → vm < connector.created
  /-- Only the deadline loop gives up a machine that is paused. -/
  pausedExpired :
    ∀ vm, vm ∈ connector.givenUp → (connector.vms vm).toDelete = true →
      vm ∈ connector.expired

namespace AbstractConnector

variable {connector : AbstractConnector}

theorem comparison_self (clock : Nat → Int) (vm : Nat) :
    connector.comparison clock vm vm = 0 :=
  if_pos rfl

theorem consistent_new : Consistent .new where
  alive vm := by simp [new]
  aliveOnce := nodup_nil
  known name vm := by simp [new]
  waiting vm := by simp [new]
  waitingOnce := nodup_nil
  destroyedOnce := nodup_nil
  notReused := rfl
  preparingOnce := nodup_nil
  prepared := by simp [new]
  deletionsOnce := nodup_nil
  deleting := by simp [new]
  endedGivenUp := by simp [new]
  expiredGivenUp := by simp [new]
  givenUpCreated := by simp [new]
  pausedExpired := by simp [new]

end AbstractConnector

namespace Consistent

variable {connector : AbstractConnector}

/-- No two machines that exist have one name. -/
theorem sameName
    (consistent : Consistent connector)
    {vm other : Nat}
    (created : vm < connector.created)
    (notDestroyed : vm ∉ connector.destroyed)
    (otherCreated : other < connector.created)
    (otherExists : other ∉ connector.destroyed)
    (sameName : (connector.vms other).name = (connector.vms vm).name) :
    other = vm := by
  have knownVM :=
    (consistent.known (connector.vms vm).name vm).mpr
      ⟨created, rfl, notDestroyed⟩
  have knownOther :=
    (consistent.known (connector.vms vm).name other).mpr
      ⟨otherCreated, sameName, otherExists⟩
  rw [knownVM] at knownOther
  exact (Option.some.inj knownOther).symm

variable {vm : Nat}

section

variable (consistent : Consistent connector)

include consistent

theorem mem_removeMachine
    (created : vm < connector.created)
    (notDestroyed : vm ∉ connector.destroyed)
    (other : Nat) :
    other ∈ (connector.removeMachine vm).vmsAlive ↔
      other ∈ connector.vmsAlive ∧ other ≠ vm := by
  have onlyThis :
      ∀ candidate, candidate ∈ connector.vmsAlive →
        (connector.vms vm).name = (connector.vms candidate).name →
          candidate = vm := by
    intro candidate isAlive same
    have isCreated := (consistent.alive candidate).mp isAlive
    exact consistent.sameName created notDestroyed isCreated.1 isCreated.2.2
      same.symm
  constructor
  · intro remains
    have isAlive := mem_of_mem_eraseP remains
    refine ⟨isAlive, ?_⟩
    rintro rfl
    obtain ⟨found, before, after, _, isFound, split, removed⟩ :=
      @exists_of_eraseP _
        (fun candidate =>
          (connector.vms other).name = (connector.vms candidate).name)
        _ _ isAlive (decide_eq_true rfl)
    have foundAlive : found ∈ connector.vmsAlive :=
      split ▸ mem_append_right before mem_cons_self
    obtain rfl := onlyThis found foundAlive (of_decide_eq_true isFound)
    have once := consistent.aliveOnce
    rw [split] at once
    rw [removeMachine] at remains
    rw [removed] at remains
    exact (nodup_middle.mp once).notMem remains
  · intro ⟨isAlive, different⟩
    refine (mem_eraseP_of_neg ?_).mpr isAlive
    rw [decide_eq_true_eq]
    exact fun same => different (onlyThis other isAlive same)

/-!
## What the steps keep
-/

omit consistent in
theorem nodup_snoc
    {machines : List Nat}
    (once : machines.Nodup)
    (fresh : vm ∉ machines) :
    (machines ++ [vm]).Nodup :=
  once.append (nodup_singleton vm) (disjoint_singleton.mpr fresh)

theorem waitCreation
    (name imageName : String)
    (description : CloudMethodResourceDescription)
    (unknown : connector.IPToVM.lookup name = none) :
    Consistent (connector.waitCreation name imageName description) := by
  have notGivenUp : connector.created ∉ connector.givenUp :=
    fun isGivenUp =>
      Nat.lt_irrefl _ (consistent.givenUpCreated _ isGivenUp)
  have notDestroyed : connector.created ∉ connector.destroyed :=
    fun isDestroyed => notGivenUp (consistent.endedGivenUp _ isDestroyed)
  have notExpired : connector.created ∉ connector.expired :=
    fun isExpired => notGivenUp (consistent.expiredGivenUp _ isExpired)
  have notAlive : connector.created ∉ connector.vmsAlive :=
    fun isAlive => Nat.lt_irrefl _ ((consistent.alive _).mp isAlive).1
  have notWaiting : connector.created ∉ connector.vmsToDelete :=
    fun isWaiting => Nat.lt_irrefl _ ((consistent.waiting _).mp isWaiting).1
  have notPreparing : connector.created ∉ connector.preparing :=
    fun isPreparing => Nat.lt_irrefl _ (consistent.prepared _ isPreparing).1
  have sameVM :
      ∀ vm, vm ≠ connector.created →
        (connector.waitCreation name imageName description).vms vm =
          connector.vms vm :=
    fun vm different => if_neg different
  have newVM :
      (connector.waitCreation name imageName description).vms
          connector.created =
        ⟨name, imageName, description, 0, false⟩ :=
    if_pos rfl
  have createdBefore :
      ∀ vm, vm ≠ connector.created →
        (vm < connector.created + 1 ↔ vm < connector.created) := by
    omega
  exact
    { consistent with
      alive := by
        intro vm
        change vm ∈ connector.vmsAlive ++ [connector.created] ↔
          vm < connector.created + 1 ∧ vm ∉ connector.expired ∧
            vm ∉ connector.destroyed
        rw [mem_append, mem_singleton]
        by_cases isNew : vm = connector.created
        · subst vm
          exact ⟨fun _ => ⟨Nat.lt_succ_self _, notExpired, notDestroyed⟩,
            fun _ => .inr rfl⟩
        · rw [createdBefore vm isNew, ← consistent.alive vm]
          exact or_iff_left isNew
      aliveOnce := nodup_snoc consistent.aliveOnce notAlive
      known := by
        intro other vm
        change (connector.IPToVM.insert name connector.created).lookup other =
            some vm ↔
          vm < connector.created + 1 ∧ _ ∧ vm ∉ connector.destroyed
        by_cases isNew : vm = connector.created
        · subst vm
          rw [newVM]
          by_cases isName : other = name
          · subst other
            rw [AList.lookup_insert]
            exact
              ⟨fun _ => ⟨Nat.lt_succ_self _, rfl, notDestroyed⟩, fun _ => rfl⟩
          · rw [AList.lookup_insert_ne isName, consistent.known]
            exact ⟨fun known => absurd known.1 (Nat.lt_irrefl _),
              fun known => absurd known.2.1.symm isName⟩
        · rw [createdBefore vm isNew, sameVM vm isNew, ← consistent.known]
          by_cases isName : other = name
          · subst other
            rw [AList.lookup_insert, unknown, Option.some.injEq]
            exact ⟨fun same => absurd same.symm isNew, nofun⟩
          · rw [AList.lookup_insert_ne isName]
      waiting := by
        intro vm
        change vm ∈ connector.vmsToDelete ↔
          vm < connector.created + 1 ∧ _ ∧ vm ∉ connector.givenUp
        by_cases isNew : vm = connector.created
        · subst vm
          rw [newVM]
          exact ⟨fun isWaiting => absurd isWaiting notWaiting,
            fun conditions => nomatch conditions.2.1⟩
        · rw [createdBefore vm isNew, sameVM vm isNew]
          exact consistent.waiting vm
      preparingOnce := nodup_snoc consistent.preparingOnce notPreparing
      prepared := by
        intro vm isPreparing
        rcases mem_append.mp isPreparing with before | isNew
        · have prepared := consistent.prepared vm before
          rw [sameVM vm (Nat.ne_of_lt prepared.1)]
          exact ⟨Nat.lt_succ_of_lt prepared.1, prepared.2⟩
        · obtain rfl := mem_singleton.mp isNew
          rw [newVM]
          exact ⟨Nat.lt_succ_self _, rfl, notGivenUp⟩
      givenUpCreated :=
        fun vm isGivenUp =>
          Nat.lt_succ_of_lt (consistent.givenUpCreated vm isGivenUp)
      pausedExpired := by
        intro vm isGivenUp
        rw [sameVM vm (Nat.ne_of_lt (consistent.givenUpCreated vm isGivenUp))]
        exact consistent.pausedExpired vm isGivenUp }

theorem vmReady
    (vm : Nat)
    (now : Int) :
    Consistent (connector.vmReady vm now) := by
  have sameName :
      ∀ other, ((connector.vmReady vm now).vms other).name =
        (connector.vms other).name := by
    intro other
    simp only [AbstractConnector.vmReady, AbstractConnector.updateVM]
    split <;> rfl
  have sameMark :
      ∀ other, ((connector.vmReady vm now).vms other).toDelete =
        (connector.vms other).toDelete := by
    intro other
    simp only [AbstractConnector.vmReady, AbstractConnector.updateVM]
    split <;> rfl
  exact
    { consistent with
      known := by
        intro name other
        rw [sameName]
        exact consistent.known name other
      waiting := by
        intro other
        rw [sameMark]
        exact consistent.waiting other
      preparingOnce := consistent.preparingOnce.erase vm
      prepared := by
        intro other isPreparing
        rw [sameMark]
        exact consistent.prepared other (mem_of_mem_erase isPreparing)
      pausedExpired := by
        intro other isGivenUp
        rw [sameMark]
        exact consistent.pausedExpired other isGivenUp }

/-- A machine is destroyed that no thread works on any more. -/
theorem poweroff
    (isGivenUp : vm ∈ connector.givenUp)
    (notDestroyed : vm ∉ connector.destroyed)
    (notDeleting : vm ∉ connector.deletions)
    (destroys : Bool) :
    Consistent (connector.poweroff vm destroys) := by
  cases destroys with
  | false => exact consistent
  | true =>
      have created := consistent.givenUpCreated vm isGivenUp
      have ended :
          ∀ other, other ∉ connector.destroyed ++ [vm] ↔
            other ∉ connector.destroyed ∧ other ≠ vm := by
        simp [not_or]
      exact
        { consistent with
          alive := by
            intro other
            change other ∈ (connector.removeMachine vm).vmsAlive ↔
              other < connector.created ∧ other ∉ connector.expired ∧
                other ∉ connector.destroyed ++ [vm]
            rw [consistent.mem_removeMachine created notDestroyed, ended,
              consistent.alive]
            tauto
          aliveOnce := consistent.aliveOnce.eraseP _
          known := by
            intro name other
            change
              (connector.IPToVM.erase (connector.vms vm).name).lookup name =
                some other ↔
              other < connector.created ∧ (connector.vms other).name = name ∧
                other ∉ connector.destroyed ++ [vm]
            rw [ended]
            by_cases isName : name = (connector.vms vm).name
            · subst name
              rw [AList.lookup_erase]
              refine ⟨nofun, fun known => ?_⟩
              exact absurd
                (consistent.sameName created notDestroyed known.1 known.2.2.1
                  known.2.1)
                known.2.2.2
            · rw [AList.lookup_erase_ne isName, consistent.known]
              constructor
              · intro known
                refine ⟨known.1, known.2.1, known.2.2, ?_⟩
                rintro rfl
                exact isName known.2.1.symm
              · intro known
                exact ⟨known.1, known.2.1, known.2.2.1⟩
          destroyedOnce :=
            nodup_snoc consistent.destroyedOnce notDestroyed
          deleting := by
            intro other isDeleting
            have deleting := consistent.deleting other isDeleting
            refine ⟨deleting.1, (ended other).mpr ⟨deleting.2, ?_⟩⟩
            rintro rfl
            exact notDeleting isDeleting
          endedGivenUp := by
            intro other isEnded
            rcases mem_append.mp isEnded with before | isThis
            · exact consistent.endedGivenUp other before
            · rw [mem_singleton.mp isThis]
              exact isGivenUp }

/-- The deletion of a machine is started that is not in the sorted set. -/
theorem giveUp
    (created : vm < connector.created)
    (notPreparing : vm ∉ connector.preparing)
    (notWaiting : vm ∉ connector.vmsToDelete)
    (paused :
      (connector.vms vm).toDelete = true → vm ∈ connector.expired) :
    Consistent { connector with givenUp := connector.givenUp ++ [vm] } := by
  have isGivenUp :
      ∀ other, other ∈ connector.givenUp ++ [vm] ↔
        other ∈ connector.givenUp ∨ other = vm := by
    simp
  exact
    { consistent with
      waiting := by
        intro other
        change other ∈ connector.vmsToDelete ↔
          other < connector.created ∧
            (connector.vms other).toDelete = true ∧
              other ∉ connector.givenUp ++ [vm]
        rw [isGivenUp, not_or]
        constructor
        · intro isWaiting
          have waiting := (consistent.waiting other).mp isWaiting
          refine ⟨waiting.1, waiting.2.1, waiting.2.2, ?_⟩
          rintro rfl
          exact notWaiting isWaiting
        · intro waiting
          exact (consistent.waiting other).mpr
            ⟨waiting.1, waiting.2.1, waiting.2.2.1⟩
      prepared := by
        intro other isPreparing
        have prepared := consistent.prepared other isPreparing
        refine ⟨prepared.1, prepared.2.1, ?_⟩
        rw [isGivenUp, not_or]
        refine ⟨prepared.2.2, ?_⟩
        rintro rfl
        exact notPreparing isPreparing
      deleting := fun other isDeleting =>
        ⟨mem_append_left _ (consistent.deleting other isDeleting).1,
          (consistent.deleting other isDeleting).2⟩
      endedGivenUp := fun other isEnded =>
        mem_append_left _ (consistent.endedGivenUp other isEnded)
      expiredGivenUp := fun other isExpired =>
        mem_append_left _ (consistent.expiredGivenUp other isExpired)
      givenUpCreated := by
        intro other otherGivenUp
        rcases (isGivenUp other).mp otherGivenUp with before | rfl
        · exact consistent.givenUpCreated other before
        · exact created
      pausedExpired := by
        intro other otherGivenUp otherPaused
        rcases (isGivenUp other).mp otherGivenUp with before | rfl
        · exact consistent.pausedExpired other before otherPaused
        · exact paused otherPaused }

theorem creationFailed
    (isPreparing : vm ∈ connector.preparing)
    (destroys : Bool) :
    Consistent (connector.creationFailed vm destroys) := by
  have prepared := consistent.prepared vm isPreparing
  have notPaused : (connector.vms vm).toDelete ≠ true :=
    ne_true_of_eq_false prepared.2.1
  have abandoned :
      Consistent
        { connector with preparing := connector.preparing.erase vm } :=
    { consistent with
      preparingOnce := consistent.preparingOnce.erase vm
      prepared := fun other remains =>
        consistent.prepared other (mem_of_mem_erase remains) }
  have givenUp :=
    abandoned.giveUp prepared.1 consistent.preparingOnce.not_mem_erase
      (fun isWaiting => notPaused ((consistent.waiting vm).mp isWaiting).2.1)
      (fun paused => absurd paused notPaused)
  exact givenUp.poweroff (mem_append_right _ mem_cons_self)
    (fun isDestroyed => prepared.2.2 (consistent.endedGivenUp vm isDestroyed))
    (fun isDeleting => prepared.2.2 (consistent.deleting vm isDeleting).1)
    destroys

theorem deletionEnded
    (isDeleting : vm ∈ connector.deletions)
    (destroys : Bool) :
    Consistent (connector.deletionEnded vm destroys) := by
  have deleting := consistent.deleting vm isDeleting
  have ended :
      Consistent
        { connector with deletions := connector.deletions.erase vm } :=
    { consistent with
      deletionsOnce := consistent.deletionsOnce.erase vm
      deleting := fun other remains =>
        consistent.deleting other (mem_of_mem_erase remains) }
  exact ended.poweroff deleting.1 deleting.2
    consistent.deletionsOnce.not_mem_erase destroys

end

variable {clock : Nat → Int}

/-- A machine is paused that nobody has given up. -/
theorem saved
    (consistent : Consistent connector)
    (sets : TreeSet.Implementation Nat)
    (created : vm < connector.created)
    (notPreparing : vm ∉ connector.preparing)
    (notGivenUp : vm ∉ connector.givenUp)
    (placed :
      if vm ∈ connector.vmsToDelete then
        TreeSet.Findable (connector.comparison clock) connector.vmsToDelete vm
      else
        TreeSet.Insertable (connector.comparison clock)
          connector.vmsToDelete vm) :
    Consistent
      { connector.setToDelete vm true with
        vmsToDelete :=
          sets.add (connector.comparison clock) connector.vmsToDelete vm } := by
  have added :
      (sets.add (connector.comparison clock) connector.vmsToDelete vm).Nodup ∧
        ∀ other,
          other ∈ sets.add (connector.comparison clock)
              connector.vmsToDelete vm ↔
            other = vm ∨ other ∈ connector.vmsToDelete := by
    split at placed
    case isTrue isWaiting =>
      rw [sets.add_member placed isWaiting
        (comparison_self clock vm)]
      refine ⟨consistent.waitingOnce, fun other => ?_⟩
      exact (or_iff_right_of_imp fun same => same ▸ isWaiting).symm
    case isFalse notWaiting =>
      have perm := sets.add_perm placed
      refine ⟨perm.nodup_iff.mpr ?_, fun other => ?_⟩
      · exact nodup_cons.mpr ⟨notWaiting, consistent.waitingOnce⟩
      · rw [perm.mem_iff, mem_cons]
  exact
    { consistent with
      known := by
        intro name other
        rw [name_setToDelete]
        exact consistent.known name other
      waiting := by
        intro other
        change other ∈ sets.add _ _ _ ↔ other < connector.created ∧ _ ∧
          other ∉ connector.givenUp
        rw [added.2]
        by_cases isThis : other = vm
        · subst other
          rw [toDelete_setToDelete]
          exact ⟨fun _ => ⟨created, rfl, notGivenUp⟩, fun _ => .inl rfl⟩
        · rw [connector.setToDelete_of_ne _ isThis, ← consistent.waiting]
          exact or_iff_right isThis
      waitingOnce := added.1
      prepared := by
        intro other isPreparing
        have different : other ≠ vm :=
          fun same => notPreparing (same ▸ isPreparing)
        rw [connector.setToDelete_of_ne _ different]
        exact consistent.prepared other isPreparing
      pausedExpired := by
        intro other isGivenUp
        have different : other ≠ vm :=
          fun same => notGivenUp (same ▸ isGivenUp)
        rw [connector.setToDelete_of_ne _ different]
        exact consistent.pausedExpired other isGivenUp }

theorem pause
    (consistent : Consistent connector)
    (timeSlot : Int)
    (sets : TreeSet.Implementation Nat)
    {ip : String}
    {now : Int}
    (enabled : connector.Enabled (.pause ip now clock))
    (permitted : Permitted timeSlot connector (.pause ip now clock)) :
    Consistent (connector.pause timeSlot sets ip now clock) := by
  rw [AbstractConnector.pause]
  split
  case h_1 unknown => exact consistent
  case h_2 vm isKnown =>
    have known := (consistent.known ip vm).mp isKnown
    have notPreparing : vm ∉ connector.preparing :=
      fun isPreparing => enabled vm isPreparing known.2.1
    have allowed := permitted vm isKnown
    split at allowed
    case isTrue savable =>
      rw [if_pos savable]
      exact consistent.saved sets known.1 notPreparing allowed.1 allowed.2
    case isFalse notSavable =>
      rw [if_neg notSavable]
      have paused :
          (connector.vms vm).toDelete = true → vm ∈ connector.expired := by
        intro isPaused
        refine consistent.pausedExpired vm ?_ isPaused
        by_contra notGivenUp
        exact allowed.2
          ((consistent.waiting vm).mpr ⟨known.1, isPaused, notGivenUp⟩)
      have givenUp :=
        consistent.giveUp known.1 notPreparing allowed.2 paused
      exact
        { givenUp with
          deletionsOnce := nodup_snoc consistent.deletionsOnce allowed.1
          deleting := by
            intro other isDeleting
            rcases mem_append.mp isDeleting with before | isThis
            · exact givenUp.deleting other before
            · obtain rfl := mem_singleton.mp isThis
              exact ⟨mem_append_right _ mem_cons_self, known.2.2⟩ }

theorem tryToReuseVM
    (consistent : Consistent connector)
    (timeSlot : Int)
    (sets : TreeSet.Implementation Nat)
    {imageReq : String}
    {requested : CloudMethodResourceDescription}
    (permitted :
      Permitted timeSlot connector (.tryToReuseVM imageReq requested clock)) :
    Consistent (connector.tryToReuseVM sets imageReq requested clock) := by
  rw [AbstractConnector.tryToReuseVM]
  split
  case h_1 unavailable => exact consistent
  case h_2 vm isReusable =>
    have isWaiting : vm ∈ connector.vmsToDelete :=
      mem_of_find?_eq_some isReusable
    have waiting := (consistent.waiting vm).mp isWaiting
    have removed :=
      sets.remove_member (permitted vm isReusable) isWaiting
        (comparison_self clock vm)
    rw [removed, if_neg waiting.2.2]
    exact
      { consistent with
        known := by
          intro name other
          rw [name_setToDelete]
          exact consistent.known name other
        waiting := by
          intro other
          change other ∈ connector.vmsToDelete.erase vm ↔
            other < connector.created ∧ _ ∧ other ∉ connector.givenUp
          rw [consistent.waitingOnce.mem_erase_iff]
          by_cases isThis : other = vm
          · subst other
            rw [toDelete_setToDelete]
            exact ⟨fun member => absurd rfl member.1,
              fun conditions => nomatch conditions.2.1⟩
          · rw [connector.setToDelete_of_ne _ isThis, ← consistent.waiting]
            exact and_iff_right isThis
        waitingOnce := consistent.waitingOnce.erase vm
        prepared := by
          intro other isPreparing
          have prepared := consistent.prepared other isPreparing
          have different : other ≠ vm := by
            rintro rfl
            exact Bool.false_ne_true (prepared.2.1.symm.trans waiting.2.1)
          rw [connector.setToDelete_of_ne _ different]
          exact prepared
        pausedExpired := by
          intro other isGivenUp
          have different : other ≠ vm :=
            fun same => waiting.2.2 (same ▸ isGivenUp)
          rw [connector.setToDelete_of_ne _ different]
          exact consistent.pausedExpired other isGivenUp }

theorem deadlinePass
    (consistent : Consistent connector)
    (timeSlot : Int)
    (sets : TreeSet.Implementation Nat)
    {now clock : Nat → Int}
    (permitted :
      Permitted timeSlot connector (.deadlinePass now clock)) :
    Consistent (connector.deadlinePass timeSlot sets now clock) := by
  rw [AbstractConnector.deadlinePass]
  split
  case h_1 none => exact consistent
  case h_2 vm isFirst =>
    have overdue := find?_some isFirst
    rw [VM.overdue, Bool.and_eq_true] at overdue
    have isAlive : vm ∈ connector.vmsAlive :=
      mem_of_find?_eq_some isFirst
    have alive := (consistent.alive vm).mp isAlive
    have notGivenUp : vm ∉ connector.givenUp :=
      fun isGivenUp =>
        alive.2.1 (consistent.pausedExpired vm isGivenUp overdue.2)
    have isWaiting : vm ∈ connector.vmsToDelete :=
      (consistent.waiting vm).mpr ⟨alive.1, overdue.2, notGivenUp⟩
    have allowed := permitted vm isFirst
    have removed :=
      sets.remove_member allowed.2 isWaiting
        (comparison_self clock vm)
    obtain ⟨rest, split⟩ := head?_eq_some_iff.mp allowed.1
    have once := nodup_cons.mp (split ▸ consistent.aliveOnce)
    have isGivenUp :
        ∀ other, other ∈ connector.givenUp ++ [vm] ↔
          other ∈ connector.givenUp ∨ other = vm := by
      simp
    have isExpired :
        ∀ other, other ∈ connector.expired ++ [vm] ↔
          other ∈ connector.expired ∨ other = vm := by
      simp
    rw [removed, split]
    exact
      { consistent with
        alive := by
          intro other
          change other ∈ rest ↔ other < connector.created ∧
            other ∉ connector.expired ++ [vm] ∧ other ∉ connector.destroyed
          rw [isExpired, not_or]
          have otherAlive := consistent.alive other
          rw [split, mem_cons] at otherAlive
          by_cases isThis : other = vm
          · subst other
            exact ⟨fun member => absurd member once.1,
              fun conditions => absurd rfl conditions.2.1.2⟩
          · rw [or_iff_right isThis] at otherAlive
            rw [otherAlive]
            tauto
        aliveOnce := once.2
        waiting := by
          intro other
          change other ∈ connector.vmsToDelete.erase vm ↔
            other < connector.created ∧
              (connector.vms other).toDelete = true ∧
                other ∉ connector.givenUp ++ [vm]
          rw [consistent.waitingOnce.mem_erase_iff, consistent.waiting,
            isGivenUp, not_or]
          tauto
        waitingOnce := consistent.waitingOnce.erase vm
        prepared := by
          intro other isPreparing
          have prepared := consistent.prepared other isPreparing
          refine ⟨prepared.1, prepared.2.1, ?_⟩
          rw [startDeletion, isGivenUp, not_or]
          refine ⟨prepared.2.2, ?_⟩
          rintro rfl
          exact Bool.false_ne_true (prepared.2.1.symm.trans overdue.2)
        deletionsOnce :=
          nodup_snoc consistent.deletionsOnce fun isDeleting =>
            notGivenUp (consistent.deleting vm isDeleting).1
        deleting := by
          intro other isDeleting
          rcases mem_append.mp isDeleting with before | isThis
          · have deleting := consistent.deleting other before
            exact ⟨mem_append_left _ deleting.1, deleting.2⟩
          · obtain rfl := mem_singleton.mp isThis
            exact ⟨mem_append_right _ mem_cons_self, alive.2.2⟩
        endedGivenUp := fun other isEnded =>
          mem_append_left _ (consistent.endedGivenUp other isEnded)
        expiredGivenUp := by
          intro other otherExpired
          rcases (isExpired other).mp otherExpired with before | rfl
          · exact (isGivenUp other).mpr
              (.inl (consistent.expiredGivenUp other before))
          · exact (isGivenUp other).mpr (.inr rfl)
        givenUpCreated := by
          intro other otherGivenUp
          rcases (isGivenUp other).mp otherGivenUp with before | rfl
          · exact consistent.givenUpCreated other before
          · exact alive.1
        pausedExpired := by
          intro other otherGivenUp paused
          rcases (isGivenUp other).mp otherGivenUp with before | isThis
          · exact (isExpired other).mpr
              (.inl (consistent.pausedExpired other before paused))
          · exact (isExpired other).mpr (.inr isThis) }

/-- One step. -/
theorem step
    (consistent : Consistent connector)
    (timeSlot : Int)
    (sets : TreeSet.Implementation Nat)
    {action : ConnectorAction}
    (enabled : connector.Enabled action)
    (permitted : Permitted timeSlot connector action) :
    Consistent (connector.step timeSlot sets action) := by
  cases action with
  | waitCreation name imageName description =>
      exact consistent.waitCreation name imageName description permitted
  | vmReady vm now => exact consistent.vmReady vm now
  | creationFailed vm destroys =>
      exact consistent.creationFailed enabled destroys
  | pause ip now clock => exact consistent.pause timeSlot sets enabled permitted
  | tryToReuseVM imageReq requested clock =>
      exact consistent.tryToReuseVM timeSlot sets permitted
  | deadlinePass now clock =>
      exact consistent.deadlinePass timeSlot sets permitted
  | poweroff vm destroys => exact consistent.deletionEnded enabled destroys

end Consistent

/-- Two machines are created; the second one is paused and its hour ends. -/
def pausedLater : List ConnectorAction :=
  let description := unused.description
  [.waitCreation "10.0.0.1" "debian" description,
    .waitCreation "10.0.0.2" "debian" description,
    .vmReady 1 1000000,
    .vmReady 0 3000000,
    .pause "10.0.0.2" 2000000 (fun _ => 2000000),
    .deadlinePass (fun _ => 4590000) (fun _ => 4590000)]

/-- The machine that was created first is paused, reused, paused and deleted. -/
def pausedFirst : List ConnectorAction :=
  let description := unused.description
  [.waitCreation "10.0.0.1" "debian" description,
    .waitCreation "10.0.0.2" "debian" description,
    .vmReady 0 1000000,
    .vmReady 1 3000000,
    .pause "10.0.0.1" 2000000 (fun _ => 2000000),
    .tryToReuseVM "debian" description (fun _ => 2000001),
    .pause "10.0.0.1" 2000002 (fun _ => 2000002),
    .deadlinePass (fun _ => 4590000) (fun _ => 4590000),
    .poweroff 0 true]

end DistributedRdf.Connectors
