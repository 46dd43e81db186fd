import DistributedRdf.CloudDescriptions
import DistributedRdf.CreationOrder
import DistributedRdf.SlotCounts

namespace DistributedRdf.Resources

open Java Scheduling Option MethodResourceDescription

/-!
# Choice of an instance type

A provider chooses among the types that are compatible with a request by how
many more tasks they host than the request asks for.
-/

structure InstanceType extends CloudMethodResourceDescription where
  /-- A `Float`, as a multiple of `Float.MIN_VALUE`; `none` is `null`. -/
  value : Option Int

/-- The variables of the loop over the types -/
structure Selection where
  result : Option InstanceType
  /-- A `float` that is a whole number -/
  bestDistance : Int

/-- Of two types at the same distance the later one is taken if it costs less;
prices that are not known do not count. -/
def costsLess (rd result : InstanceType) : Bool :=
  match result.value, rd.value with
  | some price, some other => price > other
  | _, _ => false

/-- The body of the loop; `none` is an `ArithmeticException`. -/
def considerInstance
    (isSkipped : Int → Bool)
    (isCloser : Int → Int → Bool)
    (constraints : MethodResourceDescription)
    (amount : Nat)
    (selection : Selection)
    (rd : InstanceType) : Option Selection := do
  let slots ← rd.toMethodResourceDescription.canHostSimultaneously constraints
  let distance := floatOfInt (slots - amount)
  if isSkipped distance then
    return selection
  if isCloser distance selection.bestDistance then
    return ⟨some rd, distance⟩
  if distance = selection.bestDistance ∧
      selection.result.any (costsLess rd) then
    return ⟨some rd, distance⟩
  return selection

/-- The loop from a first distance on -/
def selectInstance
    (isSkipped : Int → Bool)
    (isCloser : Int → Int → Bool)
    (bestDistance : Int)
    (instances : List InstanceType)
    (constraints : MethodResourceDescription)
    (amount : Nat) : Option Selection :=
  instances.foldlM (considerInstance isSkipped isCloser constraints amount)
    ⟨none, bestDistance⟩

/-- `Integer.MIN_VALUE` as a `float` is the first distance. -/
def selectContainingInstance
    (instances : List InstanceType)
    (constraints : MethodResourceDescription)
    (amount : Nat) : Option (Option InstanceType) :=
  (selectInstance (· > 0) (· > ·) (floatOfInt (-2 ^ 31)) instances constraints
    amount).map (·.result)

/-- `Integer.MAX_VALUE` as a `float` is the first distance. -/
def selectContainedInstance
    (instances : List InstanceType)
    (constraints : MethodResourceDescription)
    (amount : Nat) : Option (Option InstanceType) :=
  (selectInstance (· < 0) (· < ·) (floatOfInt (2 ^ 31 - 1)) instances constraints
    amount).map (·.result)

/-! ## What is to be selected -/

section Wanted

variable
  (instances : List InstanceType)
  (constraints : MethodResourceDescription)
  (amount : Nat)

/-- So many tasks with these constraints are hosted at once. -/
def Hosts (rd : InstanceType) (slots : Int) : Prop :=
  rd.toMethodResourceDescription.canHostSimultaneously constraints = some slots

/-- The instance that hosts the amount with the fewest surplus slots, or `null`
if there is none -/
def SelectsContaining : Prop :=
  match selectContainingInstance instances constraints amount with
  | none => False
  | some none =>
      ∀ rd ∈ instances, ∀ slots, Hosts constraints rd slots → slots < amount
  | some (some rd) =>
      rd ∈ instances ∧
        ∃ slots, Hosts constraints rd slots ∧ amount ≤ slots ∧
          ∀ other ∈ instances, ∀ more, Hosts constraints other more →
            amount ≤ more → slots ≤ more

/-- The instance that hosts at most the amount and comes closest to it, or `null`
if there is none -/
def SelectsContained : Prop :=
  match selectContainedInstance instances constraints amount with
  | none => False
  | some none =>
      ∀ rd ∈ instances, ∀ slots, Hosts constraints rd slots → amount < slots
  | some (some rd) =>
      rd ∈ instances ∧
        ∃ slots, Hosts constraints rd slots ∧ slots ≤ amount ∧
          ∀ other ∈ instances, ∀ fewer, Hosts constraints other fewer →
            fewer ≤ amount → fewer ≤ slots

end Wanted

/-! ## The loop -/

section Loop

variable
  {isSkipped : Int → Bool}
  {isCloser : Int → Int → Bool}
  {bestDistance : Int}
  {instances seen : List InstanceType}
  {constraints : MethodResourceDescription}
  {amount : Nat}
  {selection after : Selection}

/-- Which distances are wanted, and how far they are -/
structure Measures
    (farness : Int → Int)
    (isSkipped : Int → Bool)
    (isCloser : Int → Int → Bool) : Prop where
  skips : ∀ distance, isSkipped distance = true ↔ farness distance < 0
  closer :
    ∀ distance best, isCloser distance best = true ↔
      farness distance < farness best

/-- What has been found among the types that the loop has seen. -/
structure Reached
    (farness : Int → Int)
    (bestDistance : Int)
    (constraints : MethodResourceDescription)
    (amount : Nat)
    (seen : List InstanceType)
    (selection : Selection) : Prop where
  found :
    ∀ rd, selection.result = some rd →
      rd ∈ seen ∧ ∃ slots, Hosts constraints rd slots ∧
        selection.bestDistance = floatOfInt (slots - amount) ∧
          0 ≤ farness selection.bestDistance
  first : selection.result = none → selection.bestDistance = bestDistance
  nearest :
    ∀ rd ∈ seen, ∀ slots, Hosts constraints rd slots →
      0 ≤ farness (floatOfInt (slots - amount)) →
        farness selection.bestDistance ≤ farness (floatOfInt (slots - amount))

variable {farness : Int → Int}

theorem Reached.considered
    (measures : Measures farness isSkipped isCloser)
    (reached :
      Reached farness bestDistance constraints amount seen selection)
    {rd : InstanceType}
    {slots : Int}
    (hosts : Hosts constraints rd slots)
    (considered :
      considerInstance isSkipped isCloser constraints amount selection rd =
        some after) :
    Reached farness bestDistance constraints amount (seen ++ [rd]) after := by
  have inSeen {other : InstanceType} (member : other ∈ seen) :
      other ∈ seen ++ [rd] :=
    List.mem_append_left [rd] member
  have isLast : rd ∈ seen ++ [rd] :=
    List.mem_append_right seen (List.mem_singleton_self rd)
  have nearestOf
      {next : Selection}
      (closer :
        farness next.bestDistance ≤ farness selection.bestDistance)
      (wanted :
        0 ≤ farness (floatOfInt (slots - amount)) →
          farness next.bestDistance ≤ farness (floatOfInt (slots - amount))) :
      ∀ other ∈ seen ++ [rd], ∀ more, Hosts constraints other more →
        0 ≤ farness (floatOfInt (more - amount)) →
          farness next.bestDistance ≤ farness (floatOfInt (more - amount)) := by
    intro other member more hostsMore isWanted
    rcases List.mem_append.mp member with earlier | last
    · exact Int.le_trans closer
        (reached.nearest other earlier more hostsMore isWanted)
    · obtain rfl := List.mem_singleton.mp last
      obtain rfl : slots = more := some.inj (hosts.symm.trans hostsMore)
      exact wanted isWanted
  rw [considerInstance, show rd.canHostSimultaneously constraints = some slots
    from hosts] at considered
  simp only [bind_eq_bind, bind_some, pure_def] at considered
  split at considered
  case isTrue skipped =>
    obtain rfl := some.inj considered
    have isNegative := (measures.skips _).mp skipped
    refine ⟨fun other found => ?_, reached.first, nearestOf (Int.le_refl _) ?_⟩
    · obtain ⟨member, rest⟩ := reached.found other found
      exact ⟨inSeen member, rest⟩
    · intro wanted
      omega
  case isFalse notSkipped =>
    have isWanted : 0 ≤ farness (floatOfInt (slots - amount)) :=
      Int.not_lt.mp fun negative => notSkipped ((measures.skips _).mpr negative)
    split at considered
    case isTrue closer =>
      obtain rfl := some.inj considered
      refine ⟨fun other found => ?_, nofun,
        nearestOf (Int.le_of_lt ((measures.closer _ _).mp closer))
          fun _ => Int.le_refl _⟩
      obtain rfl := some.inj found
      exact ⟨isLast, slots, hosts, rfl, isWanted⟩
    case isFalse notCloser =>
      have noFarther :
          farness selection.bestDistance ≤
            farness (floatOfInt (slots - amount)) :=
        Int.not_lt.mp fun closer =>
          notCloser ((measures.closer _ _).mpr closer)
      split at considered
      case isTrue same =>
        obtain rfl := some.inj considered
        refine ⟨fun other found => ?_, nofun,
          nearestOf (Int.le_of_eq (by rw [same.1]))
            fun _ => Int.le_refl _⟩
        obtain rfl := some.inj found
        exact ⟨isLast, slots, hosts, rfl, isWanted⟩
      case isFalse kept =>
        obtain rfl := some.inj considered
        refine ⟨fun other found => ?_, reached.first,
          nearestOf (Int.le_refl _) fun _ => noFarther⟩
        obtain ⟨member, rest⟩ := reached.found other found
        exact ⟨inSeen member, rest⟩

/-- The loop goes on exactly if the tasks of the type can be counted. -/
theorem considerInstance_isSome_iff
    (rd : InstanceType) :
    (considerInstance isSkipped isCloser constraints amount selection
        rd).isSome ↔ ∃ slots, Hosts constraints rd slots := by
  rw [considerInstance]
  cases counted : rd.canHostSimultaneously constraints with
  | none => simp [Hosts, counted]
  | some slots =>
      refine iff_of_true ?_ ⟨slots, counted⟩
      simp only [bind_eq_bind, bind_some, pure_def]
      split
      · rfl
      · split
        · rfl
        · split
          · rfl
          · rfl

theorem Reached.looped
    (measures : Measures farness isSkipped isCloser)
    (reached :
      Reached farness bestDistance constraints amount seen selection)
    (looped :
      instances.foldlM (considerInstance isSkipped isCloser constraints amount)
        selection = some after) :
    Reached farness bestDistance constraints amount (seen ++ instances) after ∧
      ∀ rd ∈ instances, ∃ slots, Hosts constraints rd slots := by
  induction instances generalizing seen selection with
  | nil =>
      obtain rfl := some.inj looped
      rw [List.append_nil]
      exact ⟨reached, fun _ member => absurd member List.not_mem_nil⟩
  | cons rd rest hypothesis =>
      rw [List.foldlM_cons] at looped
      obtain ⟨next, considered, restLooped⟩ := bind_eq_some_iff.mp looped
      obtain ⟨slots, hosts⟩ := (considerInstance_isSome_iff rd).mp
        (isSome_of_eq_some considered)
      obtain ⟨all, counted⟩ := hypothesis
        (reached.considered measures hosts considered) restLooped
      rw [List.append_assoc, List.singleton_append] at all
      exact ⟨all, List.forall_mem_cons.mpr ⟨⟨slots, hosts⟩, counted⟩⟩

theorem looped_isSome
    (counted : ∀ rd ∈ instances, ∃ slots, Hosts constraints rd slots) :
    (instances.foldlM (considerInstance isSkipped isCloser constraints amount)
      selection).isSome := by
  induction instances generalizing selection with
  | nil => rfl
  | cons rd rest hypothesis =>
      obtain ⟨ofFirst, ofRest⟩ := List.forall_mem_cons.mp counted
      have goesOn :
          (considerInstance isSkipped isCloser constraints amount selection
            rd).isSome :=
        (considerInstance_isSome_iff rd).mpr ofFirst
      obtain ⟨next, considered⟩ := isSome_iff_exists.mp goesOn
      rw [List.foldlM_cons, considered]
      exact hypothesis ofRest

/-- What the loop has found at its end -/
theorem reached_of_select
    (measures : Measures farness isSkipped isCloser)
    (selected :
      selectInstance isSkipped isCloser bestDistance instances constraints
        amount = some after) :
    Reached farness bestDistance constraints amount instances after ∧
      ∀ rd ∈ instances, ∃ slots, Hosts constraints rd slots := by
  have atStart :
      Reached farness bestDistance constraints amount []
        ⟨none, bestDistance⟩ :=
    { found := by
        intro rd isNone
        cases isNone
      first := fun _ => rfl
      nearest := fun _ member => absurd member List.not_mem_nil }
  exact atStart.looped measures selected

theorem floatOfInt_eq_zero_iff {value : Int} :
    floatOfInt value = 0 ↔ value = 0 := by
  constructor
  · intro isZero
    rcases Int.lt_trichotomy value 0 with negative | zero | positive
    · have := floatOfInt_neg negative
      omega
    · exact zero
    · have := floatOfInt_pos positive
      omega
  · rintro rfl
    exact floatOfInt_zero

/-- A type that hosts the exact amount is nearest, and no other is as near. -/
theorem Reached.found_exact
    (reached :
      Reached farness bestDistance constraints amount instances selection)
    (zero : ∀ distance, farness distance = 0 ↔ distance = 0)
    (far : 0 < farness bestDistance)
    {exactType : InstanceType}
    (member : exactType ∈ instances)
    (hosts : Hosts constraints exactType amount) :
    ∃ rd, selection.result = some rd ∧ rd ∈ instances ∧
      Hosts constraints rd amount := by
  have isExact : farness (floatOfInt ((amount : Int) - amount)) = 0 := by
    rw [Int.sub_self, floatOfInt_zero, zero]
  have nearest := reached.nearest exactType member amount hosts (by omega)
  rw [isExact] at nearest
  cases found : selection.result with
  | none =>
      rw [reached.first found] at nearest
      omega
  | some rd =>
      obtain ⟨isType, slots, hostsSlots, distance, wanted⟩ :=
        reached.found rd found
      have isZero := (zero _).mp (Int.le_antisymm nearest wanted)
      rw [distance, floatOfInt_eq_zero_iff] at isZero
      obtain rfl : slots = amount := by omega
      exact ⟨rd, rfl, isType, hostsSlots⟩

end Loop

/-! ## When the choice is the wanted one -/

section Choice

variable
  {instances : List InstanceType}
  {constraints : MethodResourceDescription}
  {amount : Nat}

theorem measures_containing :
    Measures (fun distance => -distance) (· > 0) (· > ·) where
  skips := by
    intro distance
    simp only [decide_eq_true_eq]
    omega
  closer := by
    intro distance best
    simp only [decide_eq_true_eq]
    omega

theorem measures_contained :
    Measures (fun distance => distance) (· < 0) (· < ·) where
  skips := by
    intro distance
    simp
  closer := by
    intro distance best
    simp

variable {rd : InstanceType}

/-- Only a type that hosts no more than the amount is selected. -/
theorem slots_of_containing
    (selected :
      selectContainingInstance instances constraints amount = some (some rd)) :
    rd ∈ instances ∧ ∃ slots, Hosts constraints rd slots ∧ slots ≤ amount := by
  obtain ⟨after, looped, result⟩ := map_eq_some_iff.mp selected
  obtain ⟨member, slots, hosts, distance, wanted⟩ :=
    (reached_of_select measures_containing looped).1.found rd result
  refine ⟨member, slots, hosts, Int.not_lt.mp fun more => ?_⟩
  have isPositive : 0 < floatOfInt (slots - amount) :=
    floatOfInt_pos (by omega)
  omega

/-- Only a type that hosts no less than the amount is selected. -/
theorem slots_of_contained
    (selected :
      selectContainedInstance instances constraints amount = some (some rd)) :
    rd ∈ instances ∧ ∃ slots, Hosts constraints rd slots ∧ amount ≤ slots := by
  obtain ⟨after, looped, result⟩ := map_eq_some_iff.mp selected
  obtain ⟨member, slots, hosts, distance, wanted⟩ :=
    (reached_of_select measures_contained looped).1.found rd result
  refine ⟨member, slots, hosts, Int.not_lt.mp fun fewer => ?_⟩
  have isNegative : floatOfInt (slots - amount) < 0 :=
    floatOfInt_neg (by omega)
  omega

theorem counted_of_containing
    {found : Option InstanceType}
    (selected :
      selectContainingInstance instances constraints amount = some found) :
    ∀ rd ∈ instances, ∃ slots, Hosts constraints rd slots := by
  obtain ⟨after, looped, _⟩ := map_eq_some_iff.mp selected
  exact (reached_of_select measures_containing looped).2

/-- The choice of a type that hosts the amount exactly -/
theorem selects_exact
    (counted : ∀ rd ∈ instances, ∃ slots, Hosts constraints rd slots)
    {exactType : InstanceType}
    (member : exactType ∈ instances)
    (hosts : Hosts constraints exactType amount) :
    (∃ rd,
        selectContainingInstance instances constraints amount =
            some (some rd) ∧
          rd ∈ instances ∧ Hosts constraints rd amount) ∧
      ∃ rd,
        selectContainedInstance instances constraints amount = some (some rd) ∧
          rd ∈ instances ∧ Hosts constraints rd amount := by
  have far : (0 : Int) < floatOfInt (2 ^ 31 - 1) :=
    floatOfInt_pos (by decide)
  have farBelow : floatOfInt (-2 ^ 31) < 0 :=
    floatOfInt_neg (by decide)
  constructor
  · have loops :
        (selectInstance (· > 0) (· > ·) (floatOfInt (-2 ^ 31)) instances
          constraints amount).isSome :=
      looped_isSome counted
    obtain ⟨after, looped⟩ := isSome_iff_exists.mp loops
    obtain ⟨rd, found, isType, hostsExact⟩ :=
      (reached_of_select measures_containing looped).1.found_exact
        (by intro distance; omega) (by omega) member hosts
    exact ⟨rd, by rw [selectContainingInstance, looped,
      map_some, found], isType, hostsExact⟩
  · have loops :
        (selectInstance (· < 0) (· < ·) (floatOfInt (2 ^ 31 - 1)) instances
          constraints amount).isSome :=
      looped_isSome counted
    obtain ⟨after, looped⟩ := isSome_iff_exists.mp loops
    obtain ⟨rd, found, isType, hostsExact⟩ :=
      (reached_of_select measures_contained looped).1.found_exact
        (fun _ => Iff.rfl) far member hosts
    exact ⟨rd, by rw [selectContainedInstance, looped,
      map_some, found], isType, hostsExact⟩

/--
Both methods select what is wanted exactly when the tasks of every type can be
counted, and one of the types hosts the amount exactly or there is no type.
-/
theorem selectsWanted_iff :
    SelectsContaining instances constraints amount ∧
        SelectsContained instances constraints amount ↔
      (∀ rd ∈ instances, ∃ slots, Hosts constraints rd slots) ∧
        (instances = [] ∨ ∃ rd ∈ instances, Hosts constraints rd amount) := by
  constructor
  · rintro ⟨containing, contained⟩
    unfold SelectsContaining at containing
    unfold SelectsContained at contained
    split at containing
    · exact containing.elim
    · rename_i selected
      have counted := counted_of_containing selected
      refine ⟨counted, ?_⟩
      split at contained
      · exact contained.elim
      · -- Both return `null`: a type would host less and more than the amount.
        refine .inl (List.eq_nil_iff_forall_not_mem.mpr fun rd member => ?_)
        obtain ⟨slots, hosts⟩ := counted rd member
        have fewer := containing rd member slots hosts
        have more := contained rd member slots hosts
        omega
      · rename_i rd selectedContained
        obtain ⟨member, slots, hosts, fewer, _⟩ := contained
        obtain ⟨_, other, hostsOther, more⟩ :=
          slots_of_contained selectedContained
        obtain rfl := some.inj (hosts.symm.trans hostsOther)
        obtain rfl : slots = amount := by omega
        exact .inr ⟨rd, member, hosts⟩
    · rename_i rd selected
      obtain ⟨member, slots, hosts, more, _⟩ := containing
      obtain ⟨_, other, hostsOther, fewer⟩ := slots_of_containing selected
      obtain rfl := some.inj (hosts.symm.trans hostsOther)
      obtain rfl : slots = amount := by omega
      exact ⟨counted_of_containing selected, .inr ⟨rd, member, hosts⟩⟩
  · rintro ⟨counted, rfl | ⟨exactType, member, hosts⟩⟩
    · have noneContaining :
          selectContainingInstance [] constraints amount = some none := rfl
      have noneContained :
          selectContainedInstance [] constraints amount = some none := rfl
      rw [SelectsContaining, noneContaining, SelectsContained, noneContained]
      constructor
      · intro rd member
        cases member
      · intro rd member
        cases member
    · obtain ⟨⟨containing, selected, isType, hostsExact⟩,
        contained, selectedContained, isContainedType, hostsContained⟩ :=
          selects_exact counted member hosts
      constructor
      · rw [SelectsContaining, selected]
        exact ⟨isType, amount, hostsExact, Int.le_refl _,
          fun _ _ _ _ isMore => isMore⟩
      · rw [SelectsContained, selectedContained]
        exact ⟨isContainedType, amount, hostsContained, Int.le_refl _,
          fun _ _ _ _ isFewer => isFewer⟩

end Choice

/-- A type with so many computing units -/
def typeOfUnits (units : Int) : InstanceType where
  toMethodResourceDescription := ofUnits [units]
  storageSize := none
  storageType := none
  operatingSystemType := none
  operatingSystemDistribution := none
  operatingSystemVersion := none
  appSoftware := []
  hostQueues := []
  value := some 1

/-- The only type hosts more than is asked for: it is not found by the one
method, and it is returned by the other. -/
theorem not_selectsWanted_larger :
    ¬ SelectsContaining [typeOfUnits 4] (.ofUnits [1]) 2 ∧
      ¬ SelectsContained [typeOfUnits 4] (.ofUnits [1]) 2 := by
  have hosts : Hosts (.ofUnits [1]) (typeOfUnits 4) 4 := by
    rfl
  constructor
  · intro containing
    have selected :
        selectContainingInstance [typeOfUnits 4] (.ofUnits [1]) 2 =
          some none := by
      rfl
    rw [SelectsContaining, selected] at containing
    exact absurd (containing _ List.mem_cons_self 4 hosts) (by decide)
  · intro contained
    have selected :
        selectContainedInstance [typeOfUnits 4] (.ofUnits [1]) 2 =
          some (some (typeOfUnits 4)) := by
      rfl
    rw [SelectsContained, selected] at contained
    obtain ⟨_, slots, hostsSlots, fewer, _⟩ := contained
    obtain rfl := some.inj (hosts.symm.trans hostsSlots)
    exact absurd fewer (by decide)

end DistributedRdf.Resources
