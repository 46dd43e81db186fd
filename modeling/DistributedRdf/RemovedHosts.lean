import DistributedRdf.DataLocations
import Mathlib.Data.List.InsertIdx

namespace DistributedRdf.Data

open Java Execution Outcome SharedDiskManager List Option List.Subset
open RemovedHost Machine

/-!
# Hosts that are removed

A host leaves its disks before the data on it is looked through.  The indexes
find all of this data; what is answered is right only under a condition on the
other copies, on removals before it and on the paths of shared files.
-/

/-!
## The tables of the shared disks
-/

namespace SharedDiskManager

/-- The hosts of a disk, none for a disk that is not known -/
def hostsOf (manager : SharedDiskManager) (diskName : String) : List Host :=
  (manager.shared2Machines diskName).getD []

/-- The tables agree on how often a disk is mounted on a host. -/
def Agrees (manager : SharedDiskManager) : Prop :=
  ∀ host diskName,
    (manager.hostsOf diskName).count host =
      (manager.getAllSharedNames host).count diskName

variable {manager : SharedDiskManager}

theorem agrees_new : new.Agrees := by
  intro host diskName
  rfl

theorem getAllSharedNames_addMachine (host other : Host) :
    (manager.addMachine host).getAllSharedNames other =
      if other = host then [] else manager.getAllSharedNames other := by
  by_cases isHost : other = host <;>
    simp [getAllSharedNames, addMachine, isHost, allShared]

variable {host : Host}

theorem Agrees.addMachine
    (agrees : manager.Agrees)
    (hasNoDisk : manager.getAllSharedNames host = []) :
    (manager.addMachine host).Agrees := by
  intro other diskName
  rw [getAllSharedNames_addMachine]
  refine (agrees other diskName).trans ?_
  split
  case isTrue isHost => rw [isHost, hasNoDisk]
  case isFalse => rfl

variable {machine : Machine}

theorem getAllSharedNames_addSharedToMachine
    (known : manager.machine2Shareds host = some machine)
    (disk : String × String)
    (other : Host) :
    (manager.addSharedToMachine host disk).getAllSharedNames other =
      if other = host then manager.getAllSharedNames host ++ [disk.1]
      else manager.getAllSharedNames other := by
  by_cases isHost : other = host <;>
    simp [getAllSharedNames, addSharedToMachine, known, isHost,
      allShared, addSharedDisk]

theorem hostsOf_addSharedToMachine
    (known : manager.machine2Shareds host = some machine)
    (disk : String × String)
    (diskName : String) :
    (manager.addSharedToMachine host disk).hostsOf diskName =
      if diskName = disk.1 then manager.hostsOf diskName ++ [host]
      else manager.hostsOf diskName := by
  by_cases isDisk : diskName = disk.1 <;>
    simp [hostsOf, addSharedToMachine, known, isDisk]

theorem addSharedToMachine_of_none
    (unknown : manager.machine2Shareds host = none)
    (disk : String × String) :
    manager.addSharedToMachine host disk = manager := by
  simp [addSharedToMachine, unknown]

theorem Agrees.addSharedToMachine
    (agrees : manager.Agrees)
    (host : Host)
    (disk : String × String) :
    (manager.addSharedToMachine host disk).Agrees := by
  intro other diskName
  cases known : manager.machine2Shareds host with
  | none =>
      rw [addSharedToMachine_of_none known]
      exact agrees other diskName
  | some machine =>
      rw [hostsOf_addSharedToMachine known,
        getAllSharedNames_addSharedToMachine known]
      have counts := agrees other diskName
      by_cases isHost : other = host <;> by_cases isDisk : diskName = disk.1 <;>
        simp_all [count_append, eq_comm]

/-- Only the disks of the host change. -/
theorem getAllSharedNames_addResource
    (sharedDisks : List (String × String))
    {host other : Host}
    (isOther : other ≠ host) :
    (manager.addResource host sharedDisks).getAllSharedNames other =
      manager.getAllSharedNames other := by
  have folded :
      ∀ start : SharedDiskManager,
        (sharedDisks.foldl
          (fun manager disk => manager.addSharedToMachine host disk)
          start).getAllSharedNames other = start.getAllSharedNames other := by
    induction sharedDisks with
    | nil =>
        intro start
        rfl
    | cons disk rest hypothesis =>
        intro start
        rw [foldl_cons, hypothesis]
        cases known : start.machine2Shareds host with
        | none => rw [addSharedToMachine_of_none known]
        | some machine =>
            rw [getAllSharedNames_addSharedToMachine known, if_neg isOther]
  rw [addResource, folded, getAllSharedNames_addMachine, if_neg isOther]

theorem Agrees.addResource
    (agrees : manager.Agrees)
    (hasNoDisk : manager.getAllSharedNames host = [])
    (sharedDisks : List (String × String)) :
    (manager.addResource host sharedDisks).Agrees := by
  have folded :
      ∀ start : SharedDiskManager, start.Agrees →
        (sharedDisks.foldl
          (fun manager disk => manager.addSharedToMachine host disk)
          start).Agrees := by
    induction sharedDisks with
    | nil =>
        intro start startAgrees
        exact startAgrees
    | cons disk rest hypothesis =>
        intro start startAgrees
        exact hypothesis _ (startAgrees.addSharedToMachine host disk)
  exact folded _ (agrees.addMachine hasNoDisk)

/-- Resources that are started once leave tables that agree. -/
theorem agrees_addResources
    {hosts : List (Host × List (String × String))}
    (distinct : (hosts.map (·.1)).Nodup)
    (agrees : manager.Agrees)
    (hasNoDisk :
      ∀ resource ∈ hosts, manager.getAllSharedNames resource.1 = []) :
    (hosts.foldl
      (fun manager resource => manager.addResource resource.1 resource.2)
      manager).Agrees := by
  induction hosts generalizing manager with
  | nil => exact agrees
  | cons resource rest hypothesis =>
      rw [map_cons, nodup_cons] at distinct
      refine hypothesis distinct.2 ?agrees ?hasNoDisk
      case agrees =>
          exact agrees.addResource (hasNoDisk resource (by simp)) resource.2
      case hasNoDisk =>
          intro other member
          have isOther : other.1 ≠ resource.1 := by
            intro isSame
            exact distinct.1 (isSame ▸ mem_map_of_mem member)
          rw [getAllSharedNames_addResource _ isOther]
          exact hasNoDisk other (by simp [member])

theorem agrees_manager (resources : Resources) : resources.manager.Agrees :=
  agrees_addResources resources.distinct agrees_new fun _ _ => rfl

/-!
### The host leaves its disks
-/

theorem count_removeFromDisk
    (host other : Host)
    (removedName diskName : String) :
    ((manager.removeFromDisk host removedName).hostsOf diskName).count other =
      (manager.hostsOf diskName).count other -
        if other = host ∧ diskName = removedName then 1 else 0 := by
  by_cases isDisk : diskName = removedName
  · cases machines : manager.shared2Machines removedName with
    | none => simp [hostsOf, removeFromDisk, isDisk, machines]
    | some hosts =>
        by_cases isHost : other = host
        · simp [hostsOf, removeFromDisk, isDisk, machines, isHost]
        · simp [hostsOf, removeFromDisk, isDisk, machines, isHost,
            count_erase_of_ne]
  · simp [hostsOf, removeFromDisk, isDisk]

/-- The host is taken out of a disk as often as the disk is listed. -/
theorem count_removeFromDisks
    (start : SharedDiskManager)
    (names : List String)
    (host other : Host)
    (diskName : String) :
    ((names.foldl
      (fun manager name => manager.removeFromDisk host name)
      start).hostsOf diskName).count other =
        (start.hostsOf diskName).count other -
          if other = host then names.count diskName else 0 := by
  induction names generalizing start with
  | nil => simp
  | cons name rest hypothesis =>
      rw [foldl_cons, hypothesis, count_removeFromDisk,
        count_cons]
      by_cases isHost : other = host
      · by_cases isDisk : name = diskName
        · simp [isHost, isDisk]
          omega
        · simp [isHost, isDisk, Ne.symm isDisk]
      · simp [isHost]

theorem machine2Shareds_removeFromDisks (names : List String) (host : Host) :
    (names.foldl
      (fun manager name => manager.removeFromDisk host name)
      manager).machine2Shareds = manager.machine2Shareds := by
  induction names generalizing manager with
  | nil => rfl
  | cons name rest hypothesis => exact hypothesis

theorem getAllSharedNames_terminate (host other : Host) :
    (manager.terminate host).1.getAllSharedNames other =
      if other = host then [] else manager.getAllSharedNames other := by
  cases known : manager.machine2Shareds host with
  | none =>
      by_cases isHost : other = host <;>
        simp [terminate, getAllSharedNames, known, isHost]
  | some machine =>
      by_cases isHost : other = host <;>
        simp [terminate, getAllSharedNames, known, isHost,
          machine2Shareds_removeFromDisks]

theorem count_hostsOf_terminate (host other : Host) (diskName : String) :
    ((manager.terminate host).1.hostsOf diskName).count other =
      (manager.hostsOf diskName).count other -
        if other = host then (manager.getAllSharedNames host).count diskName
        else 0 := by
  cases known : manager.machine2Shareds host with
  | none => simp [terminate, getAllSharedNames, known]
  | some machine =>
      have counts :=
        count_removeFromDisks manager machine.allShared host other diskName
      simpa [terminate, getAllSharedNames, known, hostsOf] using counts

theorem Agrees.terminate
    (agrees : manager.Agrees)
    (host : Host) :
    (manager.terminate host).1.Agrees := by
  intro other diskName
  rw [count_hostsOf_terminate, getAllSharedNames_terminate]
  by_cases isHost : other = host
  · simp [isHost, agrees host diskName]
  · simp [isHost, agrees other diskName]

theorem not_mem_hostsOf_terminate
    (agrees : manager.Agrees)
    (host : Host)
    (diskName : String) :
    host ∉ (manager.terminate host).1.hostsOf diskName := by
  rw [← count_eq_zero, count_hostsOf_terminate]
  simp [agrees host diskName]

variable {diskName : String}

theorem hostsOf_terminate_of_nil
    (unused : manager.hostsOf diskName = [])
    (host : Host) :
    (manager.terminate host).1.hostsOf diskName = [] := by
  refine eq_nil_iff_forall_not_mem.mpr fun other => ?_
  rw [← count_eq_zero, count_hostsOf_terminate, unused]
  simp

/-- The mount points are those of the disks that the host had. -/
theorem isSome_mountPoint_iff (host : Host) (diskName : String) :
    ((manager.terminate host).2 diskName).isSome = true ↔
      diskName ∈ manager.getAllSharedNames host := by
  cases known : manager.machine2Shareds host with
  | none => simp [terminate, getAllSharedNames, known]
  | some machine =>
      simp [terminate, getAllSharedNames, known, getPath,
        allShared, lookup_isSome_iff]

theorem hostsOf_ne_nil
    (agrees : manager.Agrees)
    (mounted : diskName ∈ manager.getAllSharedNames host) :
    manager.hostsOf diskName ≠ [] := by
  have counts := agrees host diskName
  rw [← count_pos_iff, ← counts, count_pos_iff] at mounted
  exact ne_nil_of_mem mounted

end SharedDiskManager

/-!
## The loop over the locations
-/

namespace RemovedHost

variable (removed : RemovedHost)

/-- A disk has been mounted on some host. -/
def IsKnown : DataLocation → Prop
  | .SHARED diskName _ => (removed.getHosts diskName).isSome
  | .PRIVATE _ _ | .PERSISTENT _ => True

instance : (loc : DataLocation) → Decidable (removed.IsKnown loc)
  | .SHARED _ _ => inferInstanceAs (Decidable (_ = true))
  | .PRIVATE _ _ | .PERSISTENT _ => isTrue trivial

/-- What a file is saved from if its disk was left to the host -/
def sharedToSave : DataLocation → Option DataLocation
  | .SHARED diskName path =>
      if removed.getHosts diskName = some [] ∧
          (removed.sharedMountPoints diskName).isSome then
        some (.PRIVATE removed.host (removed.canonicalPath path))
      else none
  | .PRIVATE _ _ | .PERSISTENT _ => none

/-- What is answered when all of the disks are known -/
def locationToSave
    (locations : List DataLocation)
    (uniqueHostLocation : Option DataLocation) : Option DataLocation :=
  (locations.reverse.find? (removed.IsPrivateHere ·)).or
    (uniqueHostLocation.or (locations.findSome? removed.sharedToSave))

variable
  {removed}
  {loc : DataLocation}

theorem locationToSave_here
    (isHere : removed.IsPrivateHere loc)
    (rest : List DataLocation)
    (uniqueHostLocation : Option DataLocation) :
    removed.locationToSave (loc :: rest) uniqueHostLocation =
      removed.locationToSave rest (some loc) := by
  simp [locationToSave, find?_append, isHere]

theorem locationToSave_other
    (isOther : ¬ removed.IsPrivateHere loc)
    (rest : List DataLocation)
    (uniqueHostLocation : Option DataLocation) :
    removed.locationToSave (loc :: rest) uniqueHostLocation =
      removed.locationToSave rest
        (uniqueHostLocation.or (removed.sharedToSave loc)) := by
  rw [locationToSave, locationToSave, findSome?_cons, Option.or_assoc]
  congr 1
  · simp [find?_append, isOther]
  · cases removed.sharedToSave loc <;> simp

theorem removeLocations_here
    (isHere : removed.IsPrivateHere loc)
    (rest : List DataLocation)
    (uniqueHostLocation : Option DataLocation)
    (isBeingSaved : Bool) :
    removed.removeLocations (loc :: rest) uniqueHostLocation isBeingSaved =
      removed.removeLocations rest (some loc) true := by
  cases loc with
  | PRIVATE host path =>
      rw [removeLocations]
      exact if_pos isHere
  | SHARED diskName path => exact isHere.elim
  | PERSISTENT id => exact isHere.elim

theorem removeLocations_other
    (isOther : ¬ removed.IsPrivateHere loc)
    (known : removed.IsKnown loc)
    (rest : List DataLocation)
    (uniqueHostLocation : Option DataLocation)
    (isBeingSaved : Bool) :
    ∃ isSaved,
      removed.removeLocations (loc :: rest) uniqueHostLocation isBeingSaved =
        (removed.removeLocations rest
          (uniqueHostLocation.or (removed.sharedToSave loc)) isSaved).onState
            fun kept => (loc :: kept.1, kept.2) := by
  cases loc with
  | PRIVATE host path =>
      refine ⟨isBeingSaved, ?_⟩
      rw [removeLocations, sharedToSave, or_none]
      exact if_neg isOther
  | SHARED diskName path =>
      obtain ⟨hosts, getHosts⟩ := isSome_iff_exists.mp known
      cases mountPoint : removed.sharedMountPoints diskName with
      | none =>
          refine ⟨isBeingSaved, ?_⟩
          simp [removeLocations, sharedToSave, getHosts, mountPoint]
      | some path =>
          cases hosts with
          | cons other others =>
              refine ⟨isBeingSaved, ?_⟩
              simp [removeLocations, sharedToSave, getHosts]
          | nil =>
              cases uniqueHostLocation with
              | none =>
                  refine ⟨true, ?_⟩
                  simp [removeLocations, sharedToSave, getHosts, mountPoint]
              | some loc =>
                  refine ⟨isBeingSaved, ?_⟩
                  simp [removeLocations, getHosts]
  | PERSISTENT id =>
      refine ⟨isBeingSaved, ?_⟩
      rw [removeLocations, sharedToSave, or_none]

variable {locations : List DataLocation}

theorem removeLocations_of_known
    (known : ∀ loc ∈ locations, removed.IsKnown loc)
    (uniqueHostLocation : Option DataLocation)
    (isBeingSaved : Bool) :
    ∃ isSaved,
      removed.removeLocations locations uniqueHostLocation isBeingSaved =
        .returned
          (locations.filter (¬ removed.IsPrivateHere ·), isSaved)
          (removed.locationToSave locations uniqueHostLocation) := by
  induction locations generalizing uniqueHostLocation isBeingSaved with
  | nil => exact ⟨isBeingSaved, by simp [removeLocations, locationToSave]⟩
  | cons loc rest hypothesis =>
      rw [forall_mem_cons] at known
      by_cases isHere : removed.IsPrivateHere loc
      · obtain ⟨isSaved, returned⟩ :=
          hypothesis known.2 (some loc) true
        refine ⟨isSaved, ?_⟩
        rw [removeLocations_here isHere, returned, locationToSave_here isHere]
        simp [isHere]
      · obtain ⟨restSaved, isNext⟩ :=
          removeLocations_other isHere known.1 rest uniqueHostLocation
            isBeingSaved
        obtain ⟨isSaved, returned⟩ :=
          hypothesis known.2
            (uniqueHostLocation.or (removed.sharedToSave loc)) restSaved
        refine ⟨isSaved, ?_⟩
        rw [isNext, returned, locationToSave_other isHere]
        simp [isHere, onState]

theorem removeLocations_of_unknown
    (unknown : ¬ ∀ loc ∈ locations, removed.IsKnown loc)
    (uniqueHostLocation : Option DataLocation)
    (isBeingSaved : Bool) :
    (removed.removeLocations locations uniqueHostLocation
      isBeingSaved).hasReturned = false := by
  induction locations generalizing uniqueHostLocation isBeingSaved with
  | nil => simp at unknown
  | cons loc rest hypothesis =>
      rw [forall_mem_cons, not_and_or] at unknown
      by_cases isHere : removed.IsPrivateHere loc
      · rw [removeLocations_here isHere]
        refine hypothesis (unknown.resolve_left ?_) _ _
        cases loc with
        | PRIVATE host path => exact fun notKnown => notKnown trivial
        | SHARED diskName path => exact isHere.elim
        | PERSISTENT id => exact isHere.elim
      · by_cases known : removed.IsKnown loc
        · obtain ⟨restSaved, isNext⟩ :=
            removeLocations_other isHere known rest uniqueHostLocation
              isBeingSaved
          rw [isNext, hasReturned_onState]
          exact hypothesis (unknown.resolve_left (· known)) _ _
        · cases loc with
          | SHARED diskName path =>
              have getHosts : removed.getHosts diskName = none :=
                not_isSome_iff_eq_none.mp known
              simp [removeLocations, getHosts, hasReturned]
          | PRIVATE _ _ | PERSISTENT _ => exact (known trivial).elim

variable (locations)

/-- The location goes, or stays in front of what is kept of the rest. -/
theorem subset_removeLocations
    (uniqueHostLocation : Option DataLocation)
    (isBeingSaved : Bool) :
    (removed.removeLocations locations uniqueHostLocation
      isBeingSaved).state.1 ⊆ locations := by
  induction locations generalizing uniqueHostLocation isBeingSaved with
  | nil => exact refl []
  | cons loc rest hypothesis =>
      cases loc with
      | PRIVATE host path =>
          rw [removeLocations]
          split
          · exact subset_cons_of_subset _ (hypothesis _ _)
          · rw [state_onState]
            exact cons_subset_cons _ (hypothesis _ _)
      | SHARED diskName path =>
          rw [removeLocations]
          split
          · exact refl _
          · rw [state_onState]
            refine cons_subset_cons _ ?_
            split <;> exact hypothesis _ _
      | PERSISTENT id =>
          rw [removeLocations, state_onState]
          exact cons_subset_cons _ (hypothesis _ _)

/-!
## Copies on the host and elsewhere
-/

/-- The host has left all of its disks. -/
def HasLeft (removed : RemovedHost) : Prop :=
  ∀ diskName, removed.host ∉ (removed.getHosts diskName).getD []

theorem isOn_host_iff (hasLeft : removed.HasLeft) (loc : DataLocation) :
    removed.IsOn removed.host loc ↔ removed.IsPrivateHere loc := by
  cases loc with
  | PRIVATE host path => exact Iff.rfl
  | SHARED diskName path => exact iff_of_false (hasLeft diskName) id
  | PERSISTENT id => exact Iff.rfl

theorem not_isPrivateHere_of_isElsewhere
    (isElsewhere : removed.IsElsewhere loc) :
    ¬ removed.IsPrivateHere loc := by
  cases loc with
  | PRIVATE host path => exact isElsewhere
  | SHARED diskName path => exact not_false
  | PERSISTENT id => exact isElsewhere.elim

theorem storedFile_of_isPrivateHere
    (isHere : removed.IsPrivateHere loc) :
    removed.storedFile loc = some loc := by
  cases loc with
  | PRIVATE host path => exact if_pos isHere
  | SHARED diskName path => exact isHere.elim
  | PERSISTENT id => exact isHere.elim

theorem isSome_storedFile
    (isLast :
      removed.IsPrivateHere loc ∨ (removed.sharedToSave loc).isSome) :
    (removed.storedFile loc).isSome := by
  rcases isLast with isHere | isShared
  · rw [storedFile_of_isPrivateHere isHere]
    rfl
  · cases loc with
    | PRIVATE host path => simp [sharedToSave] at isShared
    | SHARED diskName path =>
        simp only [sharedToSave, isSome_ite] at isShared
        simpa [storedFile] using isShared.2
    | PERSISTENT id => simp [sharedToSave] at isShared

/-- What the host has stored and nobody else has is to be saved. -/
theorem isLast_of_storedFile
    (hasLeft : removed.HasLeft)
    (known : removed.IsKnown loc)
    (isStored : (removed.storedFile loc).isSome)
    (isNotElsewhere : ¬ removed.IsElsewhere loc) :
    removed.IsPrivateHere loc ∨ (removed.sharedToSave loc).isSome := by
  cases loc with
  | PRIVATE host path => exact .inl (not_not.mp isNotElsewhere)
  | SHARED diskName path =>
      obtain ⟨hosts, getHosts⟩ := isSome_iff_exists.mp known
      have noHost : hosts = [] := by
        refine eq_nil_iff_forall_not_mem.mpr fun other member => ?_
        have otherHost : other ≠ removed.host := by
          rintro rfl
          exact hasLeft diskName (by simpa [getHosts] using member)
        exact isNotElsewhere ⟨other, by simpa [getHosts] using member, otherHost⟩
      refine .inr ?_
      simpa [sharedToSave, getHosts, noHost, storedFile] using isStored
  | PERSISTENT id => simp [storedFile] at isStored

theorem isSome_locationToSave_iff :
    (removed.locationToSave locations none).isSome ↔
      ∃ loc ∈ locations,
        removed.IsPrivateHere loc ∨ (removed.sharedToSave loc).isSome := by
  simp only [locationToSave, isSome_or, Bool.or_eq_true,
    find?_isSome, findSome?_isSome_iff, isSome_none,
    Bool.false_eq_true, false_or, mem_reverse, decide_eq_true_eq]
  constructor
  · rintro (⟨loc, member, isHere⟩ | ⟨loc, member, isShared⟩)
    · exact ⟨loc, member, .inl isHere⟩
    · exact ⟨loc, member, .inr isShared⟩
  · rintro ⟨loc, member, isHere | isShared⟩
    · exact .inl ⟨loc, member, isHere⟩
    · exact .inr ⟨loc, member, isShared⟩

variable {locations}

theorem locationToSave_eq_some
    {saved : DataLocation}
    (isAnswer : removed.locationToSave locations none = some saved) :
    (saved ∈ locations ∧ removed.IsPrivateHere saved) ∨
      ((∀ loc ∈ locations, ¬ removed.IsPrivateHere loc) ∧
        locations.findSome? removed.sharedToSave = some saved) := by
  rw [locationToSave, or_eq_some_iff] at isAnswer
  rcases isAnswer with isPrivate | ⟨noPrivate, isShared⟩
  · refine .inl ⟨?_, ?_⟩
    · exact mem_reverse.mp (mem_of_find?_eq_some isPrivate)
    · simpa using find?_some isPrivate
  · refine .inr ⟨?_, isShared⟩
    simpa using noPrivate

end RemovedHost

/-!
## The indexes
-/

namespace LogicalData

/-- The datum is listed where the location is. -/
def IsIndexed (data : LogicalData) : DataLocation → Prop
  | .PRIVATE host _ => host ∈ data.privateFiles
  | .SHARED diskName _ =>
      data.manager.hostsOf diskName = [] ∨ diskName ∈ data.sharedFiles
  | .PERSISTENT _ => True

structure Indexed (data : LogicalData) : Prop where
  agrees : data.manager.Agrees
  isIndexed : ∀ loc ∈ data.locations, data.IsIndexed loc

theorem indexed_new (resources : Resources) : (new resources).Indexed where
  agrees := agrees_manager resources
  isIndexed := by simp [new]

variable
  {data : LogicalData}
  {loc : DataLocation}

/-- Entries of the indexes are kept while hosts go. -/
theorem IsIndexed.mono
    (isIndexed : data.IsIndexed loc)
    {later : LogicalData}
    (unused :
      ∀ diskName, data.manager.hostsOf diskName = [] →
        later.manager.hostsOf diskName = [])
    (privateFiles : data.privateFiles ⊆ later.privateFiles)
    (sharedFiles : data.sharedFiles ⊆ later.sharedFiles) :
    later.IsIndexed loc := by
  cases loc with
  | PRIVATE host path => exact privateFiles isIndexed
  | SHARED diskName path =>
      exact isIndexed.imp (unused diskName) (@sharedFiles diskName)
  | PERSISTENT id => trivial

theorem eq_or_mem_of_mem_insertLocation
    {loc other : DataLocation}
    {position : Option Nat}
    (member : other ∈ data.insertLocation loc position) :
    other = loc ∨ other ∈ data.locations := by
  cases position with
  | none => exact .inr member
  | some index => exact eq_or_mem_of_mem_insertIdx member

/-- The tables stay, and the new location is indexed. -/
theorem Indexed.addLocation
    (indexed : data.Indexed)
    (loc : DataLocation)
    (position : Option Nat) :
    (data.addLocation loc position).Indexed := by
  have ofNew
      {later : LogicalData}
      (sameManager : later.manager = data.manager)
      (sameLocations : later.locations = data.insertLocation loc position)
      (privateFiles : data.privateFiles ⊆ later.privateFiles)
      (sharedFiles : data.sharedFiles ⊆ later.sharedFiles)
      (isNew : later.IsIndexed loc) : later.Indexed := by
    refine ⟨sameManager ▸ indexed.agrees, fun other member => ?_⟩
    rw [sameLocations] at member
    rcases eq_or_mem_of_mem_insertLocation member with rfl | earlier
    · exact isNew
    · refine (indexed.isIndexed other earlier).mono ?_ privateFiles sharedFiles
      rw [sameManager]
      exact fun _ unused => unused
  cases loc with
  | PRIVATE host path =>
      exact ofNew rfl rfl (subset_cons_self _ _) (refl _)
        mem_cons_self
  | SHARED diskName path =>
      unfold LogicalData.addLocation
      dsimp only
      split
      case isTrue unused =>
          exact ofNew rfl rfl (refl _) (refl _)
            (.inl unused)
      case isFalse used =>
          exact ofNew rfl rfl (refl _) (subset_cons_self _ _)
            (.inr mem_cons_self)
  | PERSISTENT id =>
      exact ofNew rfl rfl (refl _) (refl _) trivial

variable (removed : RemovedHost)

theorem subset_retrieved :
    (data.retrieved removed).state.1 ⊆ data.locations := by
  unfold retrieved
  split
  · unfold removeHostAndCheckLocationToSave
    split
    · exact refl _
    · exact removed.subset_removeLocations _ _ _
  · exact refl _

theorem Indexed.retrieveData
    (indexed : data.Indexed)
    (canonicalPath : String → String)
    (host : Host) :
    (data.retrieveData canonicalPath host).Indexed where
  agrees := indexed.agrees.terminate host
  isIndexed loc member := by
    have earlier : loc ∈ data.locations := subset_retrieved _ member
    refine (indexed.isIndexed loc earlier).mono ?_ (refl _)
      (refl _)
    intro diskName unused
    exact hostsOf_terminate_of_nil unused host

variable {canonicalPath : String → String}

theorem indexed_of_run
    {resources : Resources}
    {Permitted : LogicalData → Step → Prop}
    {steps : List Step}
    (run : Run (system resources canonicalPath) Permitted steps data) :
    data.Indexed := by
  refine run.invariant (indexed_new resources) ?_
  intro before step indexed _ _
  cases step with
  | addLocation loc position => exact indexed.addLocation loc position
  | retrieveData host => exact indexed.retrieveData canonicalPath host

/-!
## Removals that lose nothing
-/

/--
The condition on the state before a host is removed.  Where the datum is being
saved, an earlier removal must have left nothing to do; otherwise a copy that is
removed must have been the last one.
-/
structure RemovesLastCopy
    (data : LogicalData)
    (removed : RemovedHost) : Prop where
  known :
    data.isBeingSaved = false → data.isDataFromHost removed.host = true →
      ∀ loc ∈ data.locations, removed.IsKnown loc
  noneLeft :
    data.isBeingSaved = true →
      ∀ loc ∈ data.locations, ¬ removed.IsPrivateHere loc
  copiedBefore :
    data.isBeingSaved = true →
      (∃ loc ∈ data.locations, (removed.storedFile loc).isSome) →
        ∃ loc ∈ data.locations, removed.IsElsewhere loc
  noCopy :
    data.isBeingSaved = false →
      (∃ loc ∈ data.locations,
        removed.IsPrivateHere loc ∨ (removed.sharedToSave loc).isSome) →
        ∀ loc ∈ data.locations, ¬ removed.IsElsewhere loc
  storedAlike :
    data.isBeingSaved = false →
      (∀ loc ∈ data.locations, ¬ removed.IsPrivateHere loc) →
        ∀ saved ∈ data.locations.findSome? removed.sharedToSave,
          ∃ loc ∈ data.locations, removed.storedFile loc = some saved

variable {removed}

section

variable (hasLeft : removed.HasLeft)

include hasLeft

theorem losesNothing_of_notExamined
    (found :
      ∀ loc ∈ data.locations, (removed.storedFile loc).isSome →
        data.isDataFromHost removed.host = true)
    (notExamined : data.isDataFromHost removed.host = false) :
    (data.removal removed).LosesNothing ∧ data.RemovesLastCopy removed := by
  have nothingStored :
      ∀ loc ∈ data.locations, ¬ (removed.storedFile loc).isSome := by
    intro loc member isStored
    simp [found loc member isStored] at notExamined
  have nothingLast :
      ∀ loc ∈ data.locations,
        ¬ (removed.IsPrivateHere loc ∨ (removed.sharedToSave loc).isSome) := by
    intro loc member isLast
    exact nothingStored loc member (removed.isSome_storedFile isLast)
  have unchanged :
      data.retrieved removed =
        .returned (data.locations, data.isBeingSaved) none := by
    simp [retrieved, notExamined]
  refine ⟨⟨?returned, ?examined, ?notReferred, ?saved, ?stored⟩, ?last⟩
  case returned => simp [removal, unchanged, hasReturned]
  case examined => exact found
  case notReferred =>
      intro loc member isOn
      simp only [removal, unchanged, state_returned] at member
      rw [removal, removed.isOn_host_iff hasLeft] at isOn
      exact nothingLast loc member (.inl isOn)
  case saved =>
      simp only [removal, unchanged, value?, join_some]
      refine iff_of_false (by simp) fun expected => ?_
      obtain ⟨⟨loc, member, isStored⟩, -⟩ := expected
      exact nothingStored loc member isStored
  case stored => simp [removal, unchanged, value?]
  case last =>
      refine ⟨?_, ?_, ?_, ?_, ?_⟩
      · simp [notExamined]
      · intro _ loc member isHere
        exact nothingLast loc member (.inl isHere)
      · rintro _ ⟨loc, member, isStored⟩
        exact absurd isStored (nothingStored loc member)
      · rintro _ ⟨loc, member, isLast⟩
        exact absurd isLast (nothingLast loc member)
      · intro _ _ saved isSaved
        obtain ⟨loc, member, isShared⟩ :=
          exists_of_findSome?_eq_some isSaved
        exact absurd (.inr (by simp [isShared])) (nothingLast loc member)

variable (isExamined : data.isDataFromHost removed.host = true)

include isExamined

theorem losesNothing_iff_of_beingSaved
    (isSaved : data.isBeingSaved = true) :
    (data.removal removed).LosesNothing ↔ data.RemovesLastCopy removed := by
  have unchanged :
      data.retrieved removed = .returned (data.locations, true) none := by
    simp [retrieved, isExamined, removeHostAndCheckLocationToSave, isSaved]
  constructor
  · intro losesNothing
    refine ⟨?_, ?noneLeft, ?copiedBefore, ?_, ?_⟩
    case noneLeft =>
        intro _ loc member isHere
        refine losesNothing.notReferred loc ?_ ?_
        · simpa [removal, unchanged] using member
        · exact (removed.isOn_host_iff hasLeft loc).mpr isHere
    case copiedBefore =>
        intro _ isStored
        by_contra noCopy
        have isSome := losesNothing.saved_iff.mpr ⟨isStored, ?_⟩
        · simp [removal, unchanged, value?] at isSome
        · intro loc member isElsewhere
          refine noCopy ⟨loc, ?_, isElsewhere⟩
          simpa [removal, unchanged] using member
    all_goals simp [isSaved]
  · intro removesLast
    refine ⟨?returned, fun _ _ _ => isExamined, ?notReferred, ?saved, ?stored⟩
    case returned => simp [removal, unchanged, hasReturned]
    case notReferred =>
        intro loc member isOn
        simp only [removal, unchanged, state_returned] at member
        refine removesLast.noneLeft isSaved loc member ?_
        exact (removed.isOn_host_iff hasLeft loc).mp isOn
    case saved =>
        simp only [removal, unchanged, value?, join_some]
        refine iff_of_false (by simp) fun expected => ?_
        obtain ⟨loc, member, isElsewhere⟩ :=
          removesLast.copiedBefore isSaved expected.1
        exact expected.2 loc member isElsewhere
    case stored => simp [removal, unchanged, value?]

theorem losesNothing_iff_of_known
    (notSaved : data.isBeingSaved = false)
    (known : ∀ loc ∈ data.locations, removed.IsKnown loc) :
    (data.removal removed).LosesNothing ↔ data.RemovesLastCopy removed := by
  obtain ⟨isSaved, isRetrieved⟩ :
      ∃ isSaved, data.retrieved removed =
        .returned
          (data.locations.filter (¬ removed.IsPrivateHere ·), isSaved)
          (removed.locationToSave data.locations none) := by
    simpa [retrieved, isExamined, removeHostAndCheckLocationToSave, notSaved]
      using removed.removeLocations_of_known known none false
  have isAfter :
      ∀ loc, loc ∈ (data.removal removed).after ↔
        loc ∈ data.locations ∧ ¬ removed.IsPrivateHere loc := by
    simp [removal, isRetrieved]
  have isResult :
      (data.removal removed).result =
        removed.locationToSave data.locations none := by
    simp [removal, isRetrieved, value?]
  constructor
  · intro losesNothing
    refine ⟨fun _ _ => known, ?_, ?_, ?noCopy, ?storedAlike⟩
    case noCopy =>
        intro _ isLast loc member isElsewhere
        have isSome : (data.removal removed).result.isSome := by
          rw [isResult]
          exact (removed.isSome_locationToSave_iff data.locations).mpr isLast
        refine (losesNothing.saved_iff.mp isSome).2 loc ?_ isElsewhere
        exact (isAfter loc).mpr
          ⟨member, removed.not_isPrivateHere_of_isElsewhere isElsewhere⟩
    case storedAlike =>
        intro _ noPrivate saved isShared
        refine losesNothing.stored saved ?_
        have noneHere :
            data.locations.reverse.find? (removed.IsPrivateHere ·) = none := by
          simpa using noPrivate
        rw [isResult, locationToSave, noneHere]
        exact isShared
    all_goals simp [notSaved]
  · intro removesLast
    refine ⟨?returned, fun _ _ _ => isExamined, ?notReferred, ?saved, ?stored⟩
    case returned => simp [removal, isRetrieved, hasReturned]
    case notReferred =>
        intro loc member isOn
        refine ((isAfter loc).mp member).2 ?_
        exact (removed.isOn_host_iff hasLeft loc).mp isOn
    case saved =>
        rw [isResult, removed.isSome_locationToSave_iff]
        constructor
        · intro isLast
          refine ⟨?_, ?_⟩
          · obtain ⟨loc, member, isLast⟩ := isLast
            exact ⟨loc, member, removed.isSome_storedFile isLast⟩
          · intro loc member
            refine removesLast.noCopy notSaved isLast loc ?_
            exact ((isAfter loc).mp member).1
        · rintro ⟨⟨loc, member, isStored⟩, noneElsewhere⟩
          refine ⟨loc, member, ?_⟩
          refine removed.isLast_of_storedFile hasLeft (known loc member)
            isStored fun isElsewhere => ?_
          refine noneElsewhere loc ?_ isElsewhere
          exact (isAfter loc).mpr
            ⟨member, removed.not_isPrivateHere_of_isElsewhere isElsewhere⟩
    case stored =>
        intro saved isSaved
        rw [isResult] at isSaved
        rcases removed.locationToSave_eq_some isSaved with
          ⟨member, isHere⟩ | ⟨noPrivate, isShared⟩
        · exact ⟨saved, member, removed.storedFile_of_isPrivateHere isHere⟩
        · exact removesLast.storedAlike notSaved noPrivate saved isShared

end

theorem losesNothing_iff_of_unknown
    (isExamined : data.isDataFromHost removed.host = true)
    (notSaved : data.isBeingSaved = false)
    (unknown : ¬ ∀ loc ∈ data.locations, removed.IsKnown loc) :
    (data.removal removed).LosesNothing ↔ data.RemovesLastCopy removed := by
  refine iff_of_false ?_ ?_
  · intro losesNothing
    have returned := losesNothing.returned
    simp [removal, retrieved, isExamined, removeHostAndCheckLocationToSave,
      notSaved, removed.removeLocations_of_unknown unknown] at returned
  · intro removesLast
    exact unknown (removesLast.known notSaved isExamined)

/-- The indexes list all of the data that the host has stored. -/
theorem Indexed.isDataFromHost_of_storedFile
    (indexed : data.Indexed)
    {host : Host}
    (member : loc ∈ data.locations)
    (isStored :
      ((data.removedHost canonicalPath host).storedFile loc).isSome) :
    data.isDataFromHost host = true := by
  have isIndexed := indexed.isIndexed loc member
  cases loc with
  | PRIVATE other path =>
      have isHere : other = host := by
        by_contra isOther
        simp [storedFile, removedHost, isOther] at isStored
      exact decide_eq_true (.inl (isHere ▸ isIndexed))
  | SHARED diskName path =>
      have mounted : diskName ∈ data.manager.getAllSharedNames host := by
        rw [← isSome_mountPoint_iff]
        simpa [storedFile, removedHost] using isStored
      have used :=
        hostsOf_ne_nil indexed.agrees mounted
      exact decide_eq_true
        (.inr ⟨diskName, mounted, isIndexed.resolve_left used⟩)
  | PERSISTENT id => simp [storedFile] at isStored

/-- One removal -/
theorem Indexed.losesNothing_iff
    (indexed : data.Indexed)
    (canonicalPath : String → String)
    (host : Host) :
    (data.removal (data.removedHost canonicalPath host)).LosesNothing ↔
      data.RemovesLastCopy (data.removedHost canonicalPath host) := by
  have hasLeft : (data.removedHost canonicalPath host).HasLeft :=
    not_mem_hostsOf_terminate indexed.agrees host
  by_cases isExamined :
      data.isDataFromHost (data.removedHost canonicalPath host).host = true
  · by_cases isSaved : data.isBeingSaved = true
    · exact losesNothing_iff_of_beingSaved hasLeft isExamined isSaved
    · rw [Bool.not_eq_true] at isSaved
      by_cases known :
          ∀ loc ∈ data.locations,
            (data.removedHost canonicalPath host).IsKnown loc
      · exact losesNothing_iff_of_known hasLeft isExamined isSaved known
      · exact losesNothing_iff_of_unknown isExamined isSaved known
  · rw [Bool.not_eq_true] at isExamined
    have both :=
      losesNothing_of_notExamined hasLeft
        (fun loc member isStored =>
          indexed.isDataFromHost_of_storedFile member isStored) isExamined
    exact iff_of_true both.1 both.2

/-!
## Runs
-/

variable (canonicalPath)

/-- Removals meet the condition; locations may be added in any way. -/
def SavesData (data : LogicalData) :
    Step → Prop
  | .addLocation _ _ => True
  | .retrieveData host =>
      data.RemovesLastCopy (data.removedHost canonicalPath host)

theorem losesNothing_next_iff
    (indexed : data.Indexed)
    (canonicalPath : String → String)
    (step : Step) :
    (∀ removal ∈ (data.next canonicalPath step).removals,
      removal.LosesNothing) ↔
        (∀ removal ∈ data.removals, removal.LosesNothing) ∧
          data.SavesData canonicalPath step := by
  cases step with
  | addLocation loc position =>
      have unchanged :
          (data.next canonicalPath (.addLocation loc position)).removals =
            data.removals := by
        simp only [next, addLocation]
        split
        case h_2 => split <;> rfl
        all_goals rfl
      rw [unchanged]
      exact (and_iff_left trivial).symm
  | retrieveData host =>
      rw [SavesData, ← indexed.losesNothing_iff]
      simp [next, retrieveData, or_imp, forall_and]

/-- Nothing is lost along a run exactly if each removal meets the condition. -/
theorem losesNothing_iff_of_run
    {resources : Resources}
    {canonicalPath : String → String}
    {steps : List Step}
    (run : Run (system resources canonicalPath) anyStep steps data) :
    (∀ removal ∈ data.removals, removal.LosesNothing) ↔
      Run (system resources canonicalPath) (SavesData canonicalPath) steps
        data := by
  induction run with
  | start =>
      refine iff_of_true ?_ .start
      simp [system, new]
  | snoc run enabled permitted hypothesis =>
      rw [run.snoc_iff enabled, ← hypothesis]
      exact losesNothing_next_iff (indexed_of_run run) canonicalPath _

instance (removed : RemovedHost) :
    Decidable (data.RemovesLastCopy removed) :=
  decidable_of_iff
    ((data.isBeingSaved = false → data.isDataFromHost removed.host = true →
        ∀ loc ∈ data.locations, removed.IsKnown loc) ∧
      (data.isBeingSaved = true →
        ∀ loc ∈ data.locations, ¬ removed.IsPrivateHere loc) ∧
      (data.isBeingSaved = true →
        (∃ loc ∈ data.locations, (removed.storedFile loc).isSome) →
          ∃ loc ∈ data.locations, removed.IsElsewhere loc) ∧
      (data.isBeingSaved = false →
        (∃ loc ∈ data.locations,
          removed.IsPrivateHere loc ∨ (removed.sharedToSave loc).isSome) →
          ∀ loc ∈ data.locations, ¬ removed.IsElsewhere loc) ∧
      (data.isBeingSaved = false →
        (∀ loc ∈ data.locations, ¬ removed.IsPrivateHere loc) →
          ∀ saved ∈ data.locations.findSome? removed.sharedToSave,
            ∃ loc ∈ data.locations, removed.storedFile loc = some saved))
    ⟨fun ⟨known, noneLeft, copiedBefore, noCopy, storedAlike⟩ =>
        ⟨known, noneLeft, copiedBefore, noCopy, storedAlike⟩,
      fun ⟨known, noneLeft, copiedBefore, noCopy, storedAlike⟩ =>
        ⟨known, noneLeft, copiedBefore, noCopy, storedAlike⟩⟩

instance (canonicalPath : String → String) (data : LogicalData) :
    (step : Step) → Decidable (data.SavesData canonicalPath step)
  | .addLocation _ _ => isTrue trivial
  | .retrieveData _ => inferInstanceAs (Decidable (RemovesLastCopy _ _))

/-- Two hosts that have a disk in common -/
def twoHosts : Resources where
  hosts := [(0, [("gpfs", "/gpfs")]), (1, [("gpfs", "/mnt/gpfs")])]
  distinct := by decide

/-- The working directory is the root. -/
def absolutePath (path : String) : String :=
  if path.startsWith "/" then path else "/" ++ path

/-- One host after the other leaves; the last one has a copy of its own. -/
def removeOneByOne : List Step :=
  [.addLocation (.SHARED "gpfs" "d1v1") (some 0),
    .addLocation (.PRIVATE 1 "/tmp/d1v1") (some 0),
    .retrieveData 0, .retrieveData 1]

/-- Whatever is added and whichever hosts leave, the indexes have all data. -/
theorem listed_of_run
    {resources : Resources}
    {steps : List Step}
    (run : Run (system resources canonicalPath) anyStep steps data) :
    data.Indexed :=
  indexed_of_run run

theorem listed_removeOneByOne :
    ((system twoHosts absolutePath).after removeOneByOne).Indexed :=
  listed_of_run absolutePath (run_of_executable (by decide))

theorem losesNothing_removeOneByOne :
    (∀ removal ∈ ((system twoHosts absolutePath).after removeOneByOne).removals,
      removal.LosesNothing) ∧
      ((system twoHosts absolutePath).after removeOneByOne).removals.map
        (·.result) = [none, some (.PRIVATE 1 "/tmp/d1v1")] :=
  ⟨(losesNothing_iff_of_run (run_of_executable (by decide))).mpr
      (run_of_executable (by decide)),
    by decide⟩

/-- Each of the hosts has a copy; the one of the removed host is answered. -/
def removeCopy : List Step :=
  [.addLocation (.PRIVATE 0 "/tmp/d1v1") (some 0),
    .addLocation (.PRIVATE 1 "/tmp/d1v1") (some 0),
    .retrieveData 0]

theorem not_losesNothing_removeCopy :
    Run (system twoHosts absolutePath) anyStep removeCopy
      ((system twoHosts absolutePath).after removeCopy) ∧
      ¬ ∀ removal ∈
          ((system twoHosts absolutePath).after removeCopy).removals,
        removal.LosesNothing := by
  refine ⟨run_of_executable (by decide), fun losesNothing => ?_⟩
  have examined : ((system twoHosts absolutePath).after removeCopy).removals =
      [((system twoHosts absolutePath).after (removeCopy.take 2)).removal
        (((system twoHosts absolutePath).after (removeCopy.take 2)).removedHost
          absolutePath 0)] := rfl
  rw [examined, forall_mem_singleton] at losesNothing
  refine (losesNothing.saved_iff.mp (by decide)).2 (.PRIVATE 1 "/tmp/d1v1") ?_ ?_
  · decide
  · decide

end LogicalData

end DistributedRdf.Data
