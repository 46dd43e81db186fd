import DistributedRdf.CoreSignatures

namespace DistributedRdf.CBinding

open Words List Option CoreManager

/-!
# Registered core elements

The registry keeps the core elements that are found by their calls while others
are registered, since functions of different names have different signatures.
The parser registers one for each declaration of a file.
-/

section Registry

variable {Constraints : Type}
variable {manager : CoreManager Constraints}
variable {registered : List InterfaceEntry}

/-- What holds when these declarations have been registered -/
structure Registered
    (manager : CoreManager Constraints)
    (registered : List InterfaceEntry) :
    Prop where
  bounded : ∀ signature coreId,
    manager.signatureToCoreId signature = some coreId →
      coreId < manager.coreCount
  named : ∀ coreId implementation,
    implementation ∈ manager.implementations coreId →
      ∃ entry ∈ registered,
        implementation.methodName = entry.declaration.name
  /-- A signature that no call has stands in front of its list. -/
  first : ∀ signature coreId,
    manager.signatureToCoreId signature = some coreId →
      (manager.signatures coreId).head? = some signature ∨
        ∃ entry ∈ registered,
          callSignature entry.declaration.function = some signature
  found : ∀ entry, entry ∈ registered → IsFound manager entry

theorem registered_empty :
    Registered (empty : CoreManager Constraints) [] where
  bounded := nofun
  named := nofun
  first := nofun
  found := nofun

/-! ## New core elements -/

section NewCore

variable {signature other : Text}
variable {coreId : Nat}

theorem lookup_addCoreElement_of_ne
    (different : other ≠ signature) :
    (manager.addCoreElement signature).signatureToCoreId other =
      manager.signatureToCoreId other :=
  Function.update_of_ne different _ _

@[simp] theorem lookup_addCoreElement :
    (manager.addCoreElement signature).signatureToCoreId signature =
      some manager.coreCount :=
  Function.update_self signature _ _

@[simp] theorem implementations_addCoreElement :
    (manager.addCoreElement signature).implementations manager.coreCount =
      [] :=
  Function.update_self manager.coreCount _ _

theorem implementations_addCoreElement_of_ne
    (different : coreId ≠ manager.coreCount) :
    (manager.addCoreElement signature).implementations coreId =
      manager.implementations coreId :=
  Function.update_of_ne different _ _

@[simp] theorem signatures_addCoreElement :
    (manager.addCoreElement signature).signatures manager.coreCount =
      [signature] :=
  Function.update_self manager.coreCount _ _

theorem signatures_addCoreElement_of_ne
    (different : coreId ≠ manager.coreCount) :
    (manager.addCoreElement signature).signatures coreId =
      manager.signatures coreId :=
  Function.update_of_ne different _ _

variable (invariant : Registered manager registered)

include invariant

theorem Registered.ne_coreCount
    (lookup : manager.signatureToCoreId signature = some coreId) :
    coreId ≠ manager.coreCount :=
  Nat.ne_of_lt (invariant.bounded _ _ lookup)

theorem Registered.found_addCoreElement
    {entry : InterfaceEntry}
    (isNew : manager.signatureToCoreId signature = none)
    (member : entry ∈ registered) :
    IsFound (manager.addCoreElement signature) entry := by
  obtain ⟨call, coreId, isCall, lookup, counts, head⟩ :=
    (invariant.found entry member).found
  have otherCore := invariant.ne_coreCount lookup
  have otherSignature : call ≠ signature := by
    rintro rfl
    exact absurd (isNew.symm.trans lookup) nofun
  refine ⟨call, coreId, isCall, ?_, fun number => ?_, fun noTask => ?_⟩
  · rw [lookup_addCoreElement_of_ne otherSignature, lookup]
  · by_cases same : number = manager.coreCount
    · rw [same, if_neg otherCore.symm, implementations_addCoreElement]
      rfl
    · rw [implementations_addCoreElement_of_ne same]
      exact counts number
  · rw [signatures_addCoreElement_of_ne otherCore]
    exact head noTask

/-- A new core element has the next number, and no other changes. -/
theorem Registered.addCoreElement
    (isNew : manager.signatureToCoreId signature = none) :
    Registered (manager.addCoreElement signature) registered where
  bounded other coreId lookup := by
    by_cases same : other = signature
    · rw [same, lookup_addCoreElement] at lookup
      exact some.inj lookup ▸ Nat.lt_succ_self _
    · rw [lookup_addCoreElement_of_ne same] at lookup
      exact Nat.lt_succ_of_lt (invariant.bounded other coreId lookup)
  named coreId implementation member := by
    by_cases same : coreId = manager.coreCount
    · rw [same, implementations_addCoreElement] at member
      exact absurd member not_mem_nil
    · rw [implementations_addCoreElement_of_ne same] at member
      exact invariant.named coreId implementation member
  first other coreId lookup := by
    by_cases same : other = signature
    · rw [same, lookup_addCoreElement] at lookup
      obtain rfl := some.inj lookup
      rw [signatures_addCoreElement, same]
      exact .inl rfl
    · rw [lookup_addCoreElement_of_ne same] at lookup
      rw [signatures_addCoreElement_of_ne (invariant.ne_coreCount lookup)]
      exact invariant.first other coreId lookup
  found _ member := invariant.found_addCoreElement isNew member

/-- The signature belongs to a core element, and nothing else has changed. -/
theorem Registered.registerNewCoreElement
    (signature : Text) :
    Registered (manager.registerNewCoreElement signature).1 registered ∧
      (manager.registerNewCoreElement signature).1.signatureToCoreId signature =
        some (manager.registerNewCoreElement signature).2 := by
  unfold CoreManager.registerNewCoreElement
  split
  · rename_i coreId isOld
    exact ⟨invariant, isOld⟩
  · rename_i isNew
    exact ⟨invariant.addCoreElement isNew, lookup_addCoreElement⟩

end NewCore

/-! ## New implementations -/

theorem callSignature_injective
    {func other : Function}
    {signature : Text}
    (noParenthesis : '(' ∉ func.name)
    (noParenthesisOther : '(' ∉ other.name)
    (isSignature : callSignature func = some signature)
    (isSignatureOther : callSignature other = some signature) :
    func.name = other.name :=
  (callSignature_name noParenthesis isSignature).symm.trans
    (callSignature_name noParenthesisOther isSignatureOther)

theorem head?_append_of_head?
    {texts more : List Text}
    {first : Text}
    (head : texts.head? = some first) :
    (texts ++ more).head? = some first := by
  rw [head?_append, head, some_or]

section NewImplementation

variable {entry : InterfaceEntry}
variable {implementation : MethodImplementation Constraints}
variable {signature other : Text}
variable {coreId : Nat}

theorem lookup_registerNewImplementation_of_ne
    (different : other ≠ signature) :
    (manager.registerNewImplementation implementation
      signature).signatureToCoreId other = manager.signatureToCoreId other :=
  Function.update_of_ne different _ _

@[simp] theorem lookup_registerNewImplementation :
    (manager.registerNewImplementation implementation
      signature).signatureToCoreId signature = some implementation.coreId :=
  Function.update_self signature _ _

theorem implementations_registerNewImplementation :
    (manager.registerNewImplementation implementation
      signature).implementations coreId =
      manager.implementations coreId ++
        if coreId = implementation.coreId then [implementation] else [] := by
  by_cases same : coreId = implementation.coreId
  · rw [if_pos same, same]
    exact Function.update_self implementation.coreId _ _
  · rw [if_neg same, append_nil]
    exact Function.update_of_ne same _ _

theorem signatures_registerNewImplementation :
    (manager.registerNewImplementation implementation
      signature).signatures coreId =
      manager.signatures coreId ++
        if coreId = implementation.coreId then [signature] else [] := by
  by_cases same : coreId = implementation.coreId
  · rw [if_pos same, same]
    exact Function.update_self implementation.coreId _ _
  · rw [if_neg same, append_nil]
    exact Function.update_of_ne same _ _

/-- An entry keeps its core element when another one is registered. -/
theorem IsFound.registerNewImplementation
    (isFound : IsFound manager entry)
    (otherSignature :
      callSignature entry.declaration.function ≠ some signature)
    (otherName : implementation.methodName ≠ entry.declaration.name) :
    IsFound (manager.registerNewImplementation implementation signature)
      entry := by
  obtain ⟨call, coreId, isCall, lookup, counts, head⟩ := isFound.found
  have different : call ≠ signature := fun same =>
    otherSignature (same ▸ isCall)
  refine ⟨call, coreId, isCall, ?_, fun number => ?_, fun noTask => ?_⟩
  · rw [lookup_registerNewImplementation_of_ne different, lookup]
  · have notCounted : (if number = implementation.coreId then [implementation]
        else []).filter (fun other =>
          other.methodName = entry.declaration.name) = [] := by
      split
      · simp [otherName]
      · rfl
    rw [implementations_registerNewImplementation, filter_append,
      notCounted, append_nil, counts number]
  · rw [signatures_registerNewImplementation]
    exact head?_append_of_head? (head noTask)

variable (manager registered entry implementation) in
/-- An entry has a new name, and its task is registered already. -/
structure IsNewEntry
    (signature taskSignature : Text) :
    Prop where
  identifiers : ∀ other, other ∈ entry :: registered →
    '(' ∉ other.declaration.name
  newName : ∀ other, other ∈ registered →
    entry.declaration.name ≠ other.declaration.name
  methodName : implementation.methodName = entry.declaration.name
  lookup :
    manager.signatureToCoreId taskSignature = some implementation.coreId
  isCall : callSignature entry.declaration.function = some signature
  sameTask : entry.implemented = none → taskSignature = signature

variable {taskSignature : Text}

variable
  (isNew : IsNewEntry manager registered entry implementation signature
    taskSignature)

include isNew

theorem IsNewEntry.new_signature
    {otherEntry : InterfaceEntry}
    (member : otherEntry ∈ registered) :
    callSignature otherEntry.declaration.function ≠ some signature :=
  fun isOther => isNew.newName otherEntry member
    (callSignature_injective
      (isNew.identifiers entry mem_cons_self)
      (isNew.identifiers otherEntry (mem_cons_of_mem entry member))
      isNew.isCall isOther)

/-- The entry is found by its calls: none has its name so far. -/
theorem IsNewEntry.isFound
    (invariant : Registered manager registered) :
    IsFound (manager.registerNewImplementation implementation signature)
      entry := by
  have noneBefore : ∀ number, (manager.implementations number).filter
      (fun other => other.methodName = entry.declaration.name) = [] := by
    intro number
    refine filter_eq_nil_iff.mpr fun other member => ?_
    obtain ⟨owner, isOwner, same⟩ := invariant.named number other member
    simpa [same] using (isNew.newName owner isOwner).symm
  refine ⟨signature, implementation.coreId, isNew.isCall,
    lookup_registerNewImplementation, fun number => ?_, fun noTask => ?_⟩
  · rw [implementations_registerNewImplementation, filter_append,
      noneBefore number, nil_append]
    split
    · simp [isNew.methodName]
    · rfl
  · have lookup := isNew.sameTask noTask ▸ isNew.lookup
    rw [signatures_registerNewImplementation]
    refine head?_append_of_head? ?_
    refine (invariant.first _ _ lookup).resolve_right ?_
    rintro ⟨otherEntry, member, isOther⟩
    exact isNew.new_signature member isOther

theorem IsNewEntry.registered_append
    (invariant : Registered manager registered) :
    Registered (manager.registerNewImplementation implementation signature)
      (registered ++ [entry]) where
  bounded other coreId lookup := by
    by_cases same : other = signature
    · rw [same, lookup_registerNewImplementation] at lookup
      exact some.inj lookup ▸ invariant.bounded _ _ isNew.lookup
    · rw [lookup_registerNewImplementation_of_ne same] at lookup
      exact invariant.bounded other coreId lookup
  named coreId other member := by
    rw [implementations_registerNewImplementation] at member
    rcases mem_append.mp member with isOld | member
    · obtain ⟨owner, isOwner, same⟩ := invariant.named coreId other isOld
      exact ⟨owner, mem_append_left _ isOwner, same⟩
    · split at member
      · rw [mem_singleton.mp member]
        exact ⟨entry, mem_append_right _ (mem_singleton_self entry),
          isNew.methodName⟩
      · exact absurd member not_mem_nil
  first other coreId lookup := by
    by_cases same : other = signature
    · exact .inr ⟨entry, mem_append_right _ (mem_singleton_self entry),
        same ▸ isNew.isCall⟩
    · rw [lookup_registerNewImplementation_of_ne same] at lookup
      rw [signatures_registerNewImplementation]
      rcases invariant.first other coreId lookup with head | ⟨owner, member, is⟩
      · exact .inl (head?_append_of_head? head)
      · exact .inr ⟨owner, mem_append_left _ member, is⟩
  found otherEntry member := by
    rcases mem_append.mp member with member | member
    · exact (invariant.found otherEntry member).registerNewImplementation
        (isNew.new_signature member)
        (isNew.methodName ▸ isNew.newName otherEntry member)
    · rw [mem_singleton.mp member]
      exact isNew.isFound invariant

end NewImplementation

/-- A registration adds the declaration to those that are found. -/
theorem Registered.register
    {entry : InterfaceEntry}
    {declaringClass signature taskSignature : Text}
    (invariant : Registered manager registered)
    (currConstraints : Constraints)
    (identifiers : ∀ other, other ∈ entry :: registered →
      '(' ∉ other.declaration.name)
    (newName : ∀ other, other ∈ registered →
      entry.declaration.name ≠ other.declaration.name)
    (isCall : callSignature entry.declaration.function = some signature)
    (sameTask : entry.implemented = none → taskSignature = signature) :
    Registered
      (manager.register currConstraints
        ⟨declaringClass, entry.declaration.name, taskSignature, signature⟩)
      (registered ++ [entry]) := by
  obtain ⟨withTask, lookup⟩ := invariant.registerNewCoreElement taskSignature
  exact IsNewEntry.registered_append
    ⟨identifiers, newName, rfl, lookup, isCall, sameTask⟩ withTask

end Registry

end DistributedRdf.CBinding
