import DistributedRdf.DependencyDetection
import DistributedRdf.VersionLifetime

namespace DistributedRdf.Engine

open Java Execution DataInfoProvider List Option Outcome

/-!
# Finishing the accesses of the data

Every registered access is finished once, with the versions that it was
registered on.  Deleting a file leaves its entry in the maps, so that the file
can be accessed again when its versions are gone.
-/

/-!
## One datum
-/

namespace DataInfo

/-- An access that has been finished normally read a version of the map. -/
theorem mem_of_hasReturned
    {info : DataInfo}
    {access : DataAccessId}
    {version : Nat}
    (returned : (info.hasBeenAccessed access).hasReturned = true)
    (reads : access.reads version = true) :
    version ∈ info.versions := by
  have readVersion
      (versionId : Nat)
      (absent : versionId ∉ info.versions) :
      info.versionHasBeenRead versionId = .raised info .nullPointer := by
    rw [versionHasBeenRead, if_neg absent]
  by_contra absent
  cases access with
  | read readInstance =>
      obtain rfl : readInstance.versionId = version := by
        simpa using reads
      rw [hasBeenAccessed, readVersion _ absent] at returned
      cases returned
  | write writtenInstance => simp at reads
  | readWrite readInstance writtenInstance preserve =>
      obtain rfl : readInstance.versionId = version := by
        simpa using reads
      rw [hasBeenAccessed, readVersion _ absent] at returned
      cases returned

theorem dataId_willAccess (info : DataInfo) (mode : AccessMode) :
    (info.willAccess mode).1.dataId = info.dataId ∧
      (info.willAccess mode).2.dataId = info.dataId := by
  cases mode with
  | R => exact ⟨rfl, rfl⟩
  | W => exact ⟨rfl, rfl⟩
  | RW => exact ⟨rfl, rfl⟩

end DataInfo

namespace History

/-- The versions of the unfinished accesses are all in the map, and no deletion
is blocked. -/
structure Sound (history : History) : Prop where
  tracked : Tracked history
  inPlace :
    ∀ access, access ∈ history.pending →
      ∀ version, access.Uses version → version ∈ history.info.versions
  unblocked : history.info.deletionBlocks = 0

theorem sound_start (dataId : Nat) : (start dataId).Sound where
  tracked := .start dataId
  inPlace := nofun
  unblocked := rfl

namespace Sound

variable {history : History}

variable (sound : history.Sound)

include sound

/-- What still uses a version keeps it in the map. -/
theorem of_removesUnused
    {action : DatumAction}
    {Justified : Nat → Prop}
    (step : RemovesUnused history.info (history.next action) Justified)
    (noneAdded :
      ∀ access, access ∈ (history.next action).pending →
        access ∈ history.pending)
    (unblocked : (history.next action).info.deletionBlocks = 0) :
    (history.next action).Sound where
  tracked := sound.tracked.of_removesUnused step noneAdded
  inPlace := by
    intro access member version uses
    exact step.mem_versions sound.tracked.consistent
      (sound.inPlace access (noneAdded access member) version uses) member uses
  unblocked := unblocked

/-- Finishing an access that is still unfinished goes well. -/
theorem finishes
    {access : DataAccessId}
    (member : access ∈ history.pending) :
    ∃ info empty,
      history.info.hasBeenAccessed access = .returned info empty ∧
        info.deletionBlocks = 0 := by
  have disjoint := sound.tracked.consistent.disjoint
  cases access with
  | read readInstance =>
      have present :=
        sound.inPlace _ member readInstance.versionId (.inl (by simp))
      obtain ⟨empty, finished⟩ :=
        DataInfo.versionHasBeenRead_eq present (disjoint _ present)
      refine ⟨_, empty, finished, ?_⟩
      rw [DataInfo.settle_deletionBlocks]
      exact sound.unblocked
  | write writtenInstance =>
      have present :=
        sound.inPlace _ member writtenInstance.versionId (.inr (by simp))
      obtain ⟨empty, finished⟩ :=
        DataInfo.versionHasBeenWritten_eq present (disjoint _ present)
      refine ⟨_, empty, finished, ?_⟩
      rw [DataInfo.settle_deletionBlocks]
      exact sound.unblocked
  | readWrite readInstance writtenInstance preserve =>
      obtain ⟨empty, finished⟩ :=
        sound.tracked.hasBeenAccessed_readWrite member
      refine ⟨_, empty, finished, ?_⟩
      rw [DataInfo.settle_deletionBlocks]
      change ((history.info.leaveReader _).settle _).deletionBlocks = 0
      rw [DataInfo.settle_deletionBlocks]
      exact sound.unblocked

theorem finish
    {access : DataAccessId}
    (member : access ∈ history.pending) :
    (history.next (.finish access)).Sound := by
  refine sound.of_removesUnused (sound.tracked.finish member) ?_ ?_
  · intro other isRemaining
    exact mem_of_mem_erase isRemaining
  · obtain ⟨info, empty, finished, unblocked⟩ := sound.finishes member
    rw [next, finished, state_returned]
    exact unblocked

theorem delete : (history.next .delete).Sound := by
  refine sound.of_removesUnused sound.tracked.delete (fun _ member => member) ?_
  have consistent := sound.tracked.consistent
  have unblocked : ¬ 0 < history.info.deletionBlocks := by
    rw [sound.unblocked]
    exact Int.lt_irrefl 0
  have removable : history.info.Removable history.info.versions := by
    refine ⟨consistent.versionsNodup.filter _, ?_⟩
    intro version idle
    exact consistent.disjoint version (mem_filter.mp idle).1
  rw [next, DataInfo.delete_of_unblocked unblocked removable]
  exact sound.unblocked

/-- What reads has to find the current version in the map. -/
theorem access
    {mode : AccessMode}
    (findsCurrent :
      mode ≠ .W → history.info.currentVersionId ∈ history.info.versions) :
    (history.next (.access mode)).Sound := by
  have inPlace := sound.inPlace
  cases mode with
  | R =>
      have current := findsCurrent (by decide)
      refine ⟨sound.tracked.accessRead, ?_, sound.unblocked⟩
      intro access member version uses
      rw [pending_accessRead] at member
      rcases mem_append.mp member with before | isNew
      · exact inPlace access before version uses
      · rw [mem_singleton.mp isNew] at uses
        have same : history.info.currentVersionId = version := by
          simpa [DataAccessId.Uses] using uses
        exact same ▸ current
  | W =>
      refine ⟨sound.tracked.accessWrite, ?_, sound.unblocked⟩
      intro access member version uses
      rw [pending_accessWrite] at member
      rcases mem_append.mp member with before | isNew
      · exact mem_append_left _ (inPlace access before version uses)
      · rw [mem_singleton.mp isNew] at uses
        have same : history.info.currentVersionId + 1 = version := by
          simpa [DataAccessId.Uses] using uses
        exact mem_append_right _ (mem_singleton.mpr same.symm)
  | RW =>
      have current := findsCurrent (by decide)
      refine ⟨sound.tracked.accessReadWrite current, ?_, sound.unblocked⟩
      intro access member version uses
      rw [pending_accessReadWrite] at member
      rcases mem_append.mp member with before | isNew
      · exact mem_append_left _ (inPlace access before version uses)
      · rw [mem_singleton.mp isNew] at uses
        have same :
            history.info.currentVersionId = version ∨
              history.info.currentVersionId + 1 = version := by
          simpa [DataAccessId.Uses] using uses
        rcases same with rfl | rfl
        · exact mem_append_left _ current
        · exact mem_append_right _ (mem_singleton_self _)

end Sound

/-- An access that reads is only finished if it has found its version. -/
theorem findsCurrent_of_hasReturned
    {info : DataInfo}
    {mode : AccessMode}
    (reads : mode ≠ .W)
    (returned :
      ((info.willAccess mode).1.hasBeenAccessed
        (info.willAccess mode).2).hasReturned = true) :
    info.currentVersionId ∈ info.versions := by
  cases mode with
  | R =>
      have present : info.currentVersionId ∈ info.willBeRead.versions :=
        DataInfo.mem_of_hasReturned returned (decide_eq_true rfl)
      exact present
  | W => exact absurd rfl reads
  | RW =>
      have present :
          info.currentVersionId ∈
            info.versions ++ [info.currentVersionId + 1] :=
        DataInfo.mem_of_hasReturned returned (decide_eq_true rfl)
      rcases mem_append.mp present with before | isNew
      · exact before
      · have same := mem_singleton.mp isNew
        omega

end History

/-!
## All data of the provider
-/

namespace DataInfoProvider

/-- The entries of the file stay in the maps. -/
def deleteData
    (provider : DataInfoProvider)
    (location : DataLocation) : Outcome DataInfoProvider (Option Nat) :=
  match provider.nameToId.lookup location.locationKey with
  | none => .returned provider none
  | some fileId =>
      match provider.idToData.lookup fileId with
      | none => .raised provider .nullPointer
      | some fileInfo =>
          (fileInfo.info.delete.onState fun info =>
            provider.setInfo fileId fileInfo info).andThen fun provider _ =>
              .returned provider (some fileId)

/-- The current version of the datum has not been removed. -/
def CurrentInPlace (provider : DataInfoProvider) (dataId : Nat) : Prop :=
  ∀ datum, provider.idToData.lookup dataId = some datum →
    datum.info.currentVersionId ∈ datum.info.versions
  deriving Decidable

theorem hasReturned_dataHasBeenAccessed
    (provider : DataInfoProvider)
    (access : DataAccessId) :
    (provider.dataHasBeenAccessed access).hasReturned = true ↔
      ∃ datum, provider.idToData.lookup access.dataId = some datum ∧
        (datum.info.hasBeenAccessed access).hasReturned = true := by
  unfold dataHasBeenAccessed
  cases provider.idToData.lookup access.dataId with
  | none => simp [hasReturned]
  | some datum =>
      cases finished : datum.info.hasBeenAccessed access with
      | returned _ _ | raised _ _ =>
          simp [finished, onState, hasReturned]

variable {provider : DataInfoProvider}

theorem state_dataHasBeenAccessed
    {access : DataAccessId}
    {datum : Datum}
    (found : provider.idToData.lookup access.dataId = some datum) :
    (provider.dataHasBeenAccessed access).state =
      provider.setInfo access.dataId datum
        (datum.info.hasBeenAccessed access).state := by
  simp only [dataHasBeenAccessed, found]
  cases datum.info.hasBeenAccessed access with
  | returned info empty => rfl
  | raised info exception => rfl

theorem state_deleteData
    {location : DataLocation}
    {fileId : Nat}
    {fileInfo : Datum}
    (named : provider.nameToId.lookup location.locationKey = some fileId)
    (found : provider.idToData.lookup fileId = some fileInfo) :
    (provider.deleteData location).state =
      provider.setInfo fileId fileInfo fileInfo.info.delete.state := by
  simp only [deleteData, named, found]
  cases fileInfo.info.delete with
  | returned info empty => rfl
  | raised info exception => rfl

end DataInfoProvider

/-- The provider, with the registered accesses that have not been finished -/
structure ProviderHistory where
  provider : DataInfoProvider
  pending : List DataAccessId

inductive ProviderAction where
  | registerFileAccess (mode : AccessMode) (location : DataLocation)
  | registerObjectAccess (mode : AccessMode) (code : Int)
  | deleteData (location : DataLocation)
  | dataHasBeenAccessed (access : DataAccessId)

namespace ProviderHistory

def start : ProviderHistory where
  provider := .new
  pending := []

def register
    (history : ProviderHistory)
    (registered : Outcome DataInfoProvider DataAccessId) : ProviderHistory :=
  match registered with
  | .returned provider access =>
      { provider := provider
        pending := history.pending ++ [access] }
  | .raised provider _ => { history with provider := provider }

/-- Each registered access is finished once. -/
def Enabled (history : ProviderHistory) : ProviderAction → Prop
  | .dataHasBeenAccessed access => access ∈ history.pending
  | _ => True

def next (history : ProviderHistory) : ProviderAction → ProviderHistory
  | .registerFileAccess mode location =>
      history.register (history.provider.registerFileAccess mode location)
  | .registerObjectAccess mode code =>
      history.register (history.provider.registerObjectAccess mode code)
  | .deleteData location =>
      { history with provider := (history.provider.deleteData location).state }
  | .dataHasBeenAccessed access =>
      { provider := (history.provider.dataHasBeenAccessed access).state
        pending := history.pending.erase access }

/-- Each access that is still unfinished can be finished. -/
def Finishable (history : ProviderHistory) : Prop :=
  ∀ access, access ∈ history.pending →
    (history.provider.dataHasBeenAccessed access).hasReturned = true

/-- An access that reads a known datum finds the current version in place. -/
def FindsCurrent (history : ProviderHistory) : ProviderAction → Prop
  | .registerFileAccess mode location =>
      mode ≠ .W →
        ∀ fileId,
          history.provider.nameToId.lookup location.locationKey = some fileId →
            history.provider.CurrentInPlace fileId
  | .registerObjectAccess mode code =>
      mode ≠ .W →
        ∀ aoId, history.provider.codeToId.lookup code = some aoId →
          history.provider.CurrentInPlace aoId
  | .deleteData _ | .dataHasBeenAccessed _ => True

instance (history : ProviderHistory) :
    (action : ProviderAction) → Decidable (history.Enabled action)
  | .dataHasBeenAccessed _ => inferInstanceAs (Decidable (_ ∈ _))
  | .registerFileAccess _ _ | .registerObjectAccess _ _ | .deleteData _ =>
      isTrue trivial

instance (history : ProviderHistory) :
    (action : ProviderAction) → Decidable (history.FindsCurrent action)
  | .registerFileAccess mode location =>
      inferInstanceAs
        (Decidable (mode ≠ .W →
          ∀ fileId ∈ history.provider.nameToId.lookup location.locationKey,
            history.provider.CurrentInPlace fileId))
  | .registerObjectAccess mode code =>
      inferInstanceAs
        (Decidable (mode ≠ .W →
          ∀ aoId ∈ history.provider.codeToId.lookup code,
            history.provider.CurrentInPlace aoId))
  | .deleteData _ | .dataHasBeenAccessed _ => isTrue trivial

def pendingOn (history : ProviderHistory) (dataId : Nat) : List DataAccessId :=
  history.pending.filter fun access => access.dataId = dataId

/-- The history of one datum -/
def datumHistory
    (history : ProviderHistory)
    (dataId : Nat)
    (info : DataInfo)
    (requested : Nat) : History where
  info := info
  pending := history.pendingOn dataId
  requested := requested

/-- Unfinished accesses belong to known data, and can be finished there. -/
structure Sound (history : ProviderHistory) : Prop where
  wellFormed : history.provider.WellFormed
  known :
    ∀ access, access ∈ history.pending →
      (history.provider.idToData.lookup access.dataId).isSome
  data :
    ∀ dataId datum, history.provider.idToData.lookup dataId = some datum →
      ∃ requested, (history.datumHistory dataId datum.info requested).Sound

theorem sound_start : start.Sound where
  wellFormed := wellFormed_new
  known := nofun
  data := by simp [start, new]

namespace Sound

variable {history : ProviderHistory}

theorem finishable (sound : history.Sound) : history.Finishable := by
  intro access member
  obtain ⟨datum, found⟩ :=
    isSome_iff_exists.mp (sound.known access member)
  obtain ⟨requested, datumSound⟩ := sound.data access.dataId datum found
  have memberOn : access ∈ history.pendingOn access.dataId :=
    mem_filter.mpr ⟨member, decide_eq_true rfl⟩
  obtain ⟨info, empty, finished, -⟩ := datumSound.finishes memberOn
  rw [hasReturned_dataHasBeenAccessed]
  exact ⟨datum, found, congrArg hasReturned finished⟩

variable
  {dataId : Nat}
  {datum : Datum}

/-- One datum and its accesses change, the others stay. -/
theorem advance
    {after : ProviderHistory}
    {advanced : History}
    (sound : history.Sound)
    (found : history.provider.idToData.lookup dataId = some datum)
    (sameId : advanced.info.dataId = datum.info.dataId)
    (provider :
      after.provider = history.provider.setInfo dataId datum advanced.info)
    (own : after.pendingOn dataId = advanced.pending)
    (others :
      ∀ other, other ≠ dataId →
        after.pendingOn other = history.pendingOn other)
    (advancedSound : advanced.Sound) :
    after.Sound := by
  have lookup_self :
      after.provider.idToData.lookup dataId =
        some { datum with info := advanced.info } := by
    rw [provider, setInfo, AList.lookup_insert]
  have lookup_other {other : Nat} (different : other ≠ dataId) :
      after.provider.idToData.lookup other =
        history.provider.idToData.lookup other := by
    rw [provider, setInfo, AList.lookup_insert_ne different]
  refine ⟨?_, ?_, ?_⟩
  · rw [provider]
    exact sound.wellFormed.setInfo found sameId
  · intro access member
    by_cases isOwn : access.dataId = dataId
    · rw [isOwn, lookup_self]
      rfl
    · have memberOn : access ∈ after.pendingOn access.dataId :=
        mem_filter.mpr ⟨member, decide_eq_true rfl⟩
      rw [others _ isOwn] at memberOn
      rw [lookup_other isOwn]
      exact sound.known access (mem_filter.mp memberOn).1
  · intro other otherDatum isFound
    by_cases isOwn : other = dataId
    · subst other
      obtain rfl := some.inj (lookup_self.symm.trans isFound)
      have same :
          after.datumHistory dataId advanced.info advanced.requested =
            advanced := by
        rw [datumHistory, own]
      exact ⟨advanced.requested, same ▸ advancedSound⟩
    · rw [lookup_other isOwn] at isFound
      obtain ⟨requested, otherSound⟩ := sound.data other otherDatum isFound
      have same :
          after.datumHistory other otherDatum.info requested =
            history.datumHistory other otherDatum.info requested := by
        rw [datumHistory, others other isOwn, datumHistory]
      exact ⟨requested, same ▸ otherSound⟩

theorem finish
    {access : DataAccessId}
    (sound : history.Sound)
    (member : access ∈ history.pending) :
    (history.next (.dataHasBeenAccessed access)).Sound := by
  obtain ⟨datum, found⟩ :=
    isSome_iff_exists.mp (sound.known access member)
  obtain ⟨requested, datumSound⟩ := sound.data access.dataId datum found
  have memberOn : access ∈ history.pendingOn access.dataId :=
    mem_filter.mpr ⟨member, decide_eq_true rfl⟩
  apply sound.advance found
    (datum.info.sameVersion_hasBeenAccessed access).1
    (state_dataHasBeenAccessed found) ?_ ?_
    (datumSound.finish memberOn)
  · exact erase_filter.symm
  · intro other different
    refine erase_filter.symm.trans (erase_of_not_mem ?_)
    intro memberOther
    exact different (of_decide_eq_true (mem_filter.mp memberOther).2).symm

theorem delete
    (sound : history.Sound)
    (location : DataLocation) :
    (history.next (.deleteData location)).Sound := by
  cases named : history.provider.nameToId.lookup location.locationKey with
  | none =>
      have unchanged :
          (history.provider.deleteData location).state = history.provider := by
        rw [deleteData, named]
        rfl
      rw [next, unchanged]
      exact sound
  | some fileId =>
      obtain ⟨fileInfo, found⟩ :=
        isSome_iff_exists.mp (sound.wellFormed.named _ fileId named)
      obtain ⟨requested, datumSound⟩ := sound.data fileId fileInfo found
      apply sound.advance found fileInfo.info.sameVersion_delete.1
        (state_deleteData named found) ?_ ?_
        datumSound.delete
      · rfl
      · intro other different
        rfl

/-- An access of a known datum -/
theorem access
    {mode : AccessMode}
    (sound : history.Sound)
    (found : history.provider.idToData.lookup dataId = some datum)
    (findsCurrent :
      mode ≠ .W → datum.info.currentVersionId ∈ datum.info.versions) :
    (history.register (history.provider.willAccess mode dataId)).Sound := by
  obtain ⟨requested, datumSound⟩ := sound.data dataId datum found
  have identified := (sound.wellFormed.identified dataId datum found).1
  have sameIds := datum.info.dataId_willAccess mode
  have isOwn : (datum.info.willAccess mode).2.dataId = dataId :=
    sameIds.2.trans identified
  rw [willAccess, found]
  apply sound.advance found sameIds.1 rfl ?_ ?_
    (datumSound.access findsCurrent)
  · change filter _ (_ ++ [_]) = _
    rw [filter_append, filter_singleton, isOwn, decide_eq_true rfl]
    rfl
  · intro other different
    change filter _ (_ ++ [_]) = _
    rw [filter_append, filter_singleton, isOwn,
      decide_eq_false (Ne.symm different)]
    exact append_nil _

variable
  {extended : DataInfoProvider}
  {originalLocation : Option DataLocation}

/-- A datum that is seen for the first time has no unfinished accesses. -/
theorem addData
    (sound : history.Sound)
    (wellFormed : extended.WellFormed)
    (sameData :
      extended.idToData =
        (history.provider.addData originalLocation).idToData) :
    { history with provider := extended }.Sound := by
  have unknown :
      history.provider.idToData.lookup history.provider.nextDataId = none := by
    rw [eq_none_iff_forall_ne_some]
    intro datum found
    have bound := (sound.wellFormed.identified _ datum found).2
    omega
  have lookup_other
      {dataId : Nat}
      (different : dataId ≠ history.provider.nextDataId) :
      extended.idToData.lookup dataId =
        history.provider.idToData.lookup dataId := by
    rw [sameData, DataInfoProvider.addData, AList.lookup_insert_ne different]
  have different
      {access : DataAccessId}
      (member : access ∈ history.pending) :
      access.dataId ≠ history.provider.nextDataId := by
    intro same
    have isKnown := sound.known access member
    rw [same, unknown] at isKnown
    cases isKnown
  refine ⟨wellFormed, ?_, ?_⟩
  · intro access member
    rw [lookup_other (different member)]
    exact sound.known access member
  · intro dataId datum found
    by_cases isNew : dataId = history.provider.nextDataId
    · subst dataId
      have added :
          extended.idToData.lookup history.provider.nextDataId =
            some ⟨.new history.provider.nextDataId, originalLocation⟩ := by
        rw [sameData, DataInfoProvider.addData, AList.lookup_insert]
      obtain rfl := some.inj (added.symm.trans found)
      have none : history.pendingOn history.provider.nextDataId = [] := by
        rw [pendingOn, filter_eq_nil_iff]
        intro access member
        simpa using different member
      have same :
          history.datumHistory history.provider.nextDataId
              (.new history.provider.nextDataId) 0 =
            .start history.provider.nextDataId := by
        rw [datumHistory, none, History.start]
      exact ⟨0, same ▸ History.sound_start _⟩
    · rw [lookup_other isNew] at found
      exact sound.data dataId datum found

theorem access_iff
    (sound : history.Sound)
    (isKnown : (history.provider.idToData.lookup dataId).isSome)
    (mode : AccessMode) :
    let after := history.register (history.provider.willAccess mode dataId)
    let findsCurrent := mode ≠ .W → history.provider.CurrentInPlace dataId
    (findsCurrent → after.Sound) ∧ (after.Finishable ↔ findsCurrent) := by
  intro after findsCurrent
  obtain ⟨datum, found⟩ := isSome_iff_exists.mp isKnown
  have keeps : findsCurrent → after.Sound := by
    intro finds
    exact sound.access found fun reads => finds reads datum found
  refine ⟨keeps, ?_, fun finds => (keeps finds).finishable⟩
  intro finishable reads other otherFound
  obtain rfl := some.inj (found.symm.trans otherFound)
  have identified := (sound.wellFormed.identified dataId datum found).1
  have isOwn : (datum.info.willAccess mode).2.dataId = dataId :=
    (datum.info.dataId_willAccess mode).2.trans identified
  have shape :
      after =
        { provider :=
            history.provider.setInfo dataId datum
              (datum.info.willAccess mode).1
          pending := history.pending ++ [(datum.info.willAccess mode).2] } := by
    simp only [after, willAccess, found]
    rfl
  rw [shape] at finishable
  obtain ⟨stored, storedFound, returned⟩ :=
    (hasReturned_dataHasBeenAccessed _ _).mp
      (finishable (datum.info.willAccess mode).2
        (mem_append_right _ (mem_singleton_self _)))
  rw [isOwn, setInfo, AList.lookup_insert] at storedFound
  obtain rfl := some.inj storedFound
  exact History.findsCurrent_of_hasReturned reads returned

/-- The first access of a datum finds version 1. -/
theorem firstAccess
    (sound : history.Sound)
    (wellFormed : extended.WellFormed)
    (sameData :
      extended.idToData =
        (history.provider.addData originalLocation).idToData)
    (mode : AccessMode) :
    (history.register
      (extended.willAccess mode history.provider.nextDataId)).Sound := by
  have added :
      extended.idToData.lookup history.provider.nextDataId =
        some ⟨.new history.provider.nextDataId, originalLocation⟩ := by
    rw [sameData, DataInfoProvider.addData, AList.lookup_insert]
  exact (sound.addData wellFormed sameData).access added fun _ =>
    mem_singleton_self 1

/-- A request keeps all accesses finishable unless it reads a datum whose
current version has been removed. -/
theorem next_iff
    {action : ProviderAction}
    (sound : history.Sound)
    (enabled : history.Enabled action) :
    (history.FindsCurrent action → (history.next action).Sound) ∧
      ((history.next action).Finishable ↔ history.FindsCurrent action) := by
  cases action with
  | registerFileAccess mode location =>
      rw [next, registerFileAccess, FindsCurrent]
      cases named : history.provider.nameToId.lookup location.locationKey with
      | none =>
          have after := sound.firstAccess
            (sound.wellFormed.addName location) rfl mode
          exact ⟨fun _ => after, iff_of_true after.finishable (by simp)⟩
      | some fileId =>
          simpa using
            sound.access_iff (sound.wellFormed.named _ fileId named) mode
  | registerObjectAccess mode code =>
      rw [next, registerObjectAccess, FindsCurrent]
      cases coded : history.provider.codeToId.lookup code with
      | none =>
          have after := sound.firstAccess
            (sound.wellFormed.addCode code) rfl mode
          exact ⟨fun _ => after, iff_of_true after.finishable (by simp)⟩
      | some aoId =>
          simpa using
            sound.access_iff (sound.wellFormed.coded _ aoId coded) mode
  | deleteData location =>
      have after := sound.delete location
      exact ⟨fun _ => after, iff_of_true after.finishable trivial⟩
  | dataHasBeenAccessed access =>
      have after := sound.finish enabled
      exact ⟨fun _ => after, iff_of_true after.finishable trivial⟩

end Sound

/-- All histories of the provider's data -/
def providerSystem : TransitionSystem ProviderHistory ProviderAction where
  start := start
  Enabled := Enabled
  next := next

instance (history : ProviderHistory) (action : ProviderAction) :
    Decidable (providerSystem.Enabled history action) :=
  inferInstanceAs (Decidable (history.Enabled action))

/-- Every access can be finished, at any time, exactly when no access reads a
datum whose current version has been removed. -/
theorem finishableThroughout_iff
    {actions : List ProviderAction}
    {history : ProviderHistory}
    (run : Run providerSystem anyStep actions history) :
    (∀ before reached, before <+: actions →
      Run providerSystem anyStep before reached → reached.Finishable) ↔
        Run providerSystem FindsCurrent actions history := by
  apply run.holdsThroughout_iff_of_invariant Sound
  · exact sound_start.finishable
  · exact sound_start
  · intro state action finishable sound enabled findsCurrent
    exact (sound.next_iff enabled).1 findsCurrent
  · intro state action finishable sound enabled
    exact (sound.next_iff enabled).2

/-- A file whose versions are all removed when it is deleted -/
def resultFile : DataLocation where
  locationKey := "out".toList
  fileName := "out".toList

/-- The file is deleted while it is read, and written anew before the next
reader comes. -/
theorem finishable_rewritten :
    ∃ history,
      Run providerSystem anyStep
        [.registerFileAccess .R resultFile, .deleteData resultFile,
          .registerFileAccess .W resultFile,
          .dataHasBeenAccessed (.read ⟨1, 1⟩),
          .registerFileAccess .R resultFile] history ∧
        .read ⟨1, 2⟩ ∈ history.pending ∧
        history.Finishable := by
  have permitted :
      Run providerSystem FindsCurrent
        [.registerFileAccess .R resultFile, .deleteData resultFile,
          .registerFileAccess .W resultFile,
          .dataHasBeenAccessed (.read ⟨1, 1⟩),
          .registerFileAccess .R resultFile] _ :=
    run_of_executable (by decide)
  have run := permitted.mono fun _ _ _ => trivial
  refine ⟨_, run, by decide, ?_⟩
  exact (finishableThroughout_iff run).mpr permitted _ _ (prefix_refl _)
    run

/-- The file is read, deleted, and read again. -/
theorem not_finishable_deleted :
    ∃ history,
      Run providerSystem anyStep
        [.registerFileAccess .R resultFile,
          .dataHasBeenAccessed (.read ⟨1, 1⟩), .deleteData resultFile,
          .registerFileAccess .R resultFile] history ∧
        .read ⟨1, 1⟩ ∈ history.pending ∧
        ¬ history.Finishable := by
  refine ⟨_, run_of_executable (by decide), mem_singleton_self _, ?_⟩
  intro finishable
  have returned := finishable (.read ⟨1, 1⟩) (mem_singleton_self _)
  exact absurd returned (by decide)

end ProviderHistory

end DistributedRdf.Engine
