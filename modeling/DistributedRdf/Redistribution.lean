import DistributedRdf.InitialCreations

namespace DistributedRdf.Resources

open Scheduling CloudMethodResourceDescription List

/-!
# Redistribution of the constraints without an architecture

Whether `reassignUnassignedConstraints` comes to an end, and where it leaves the
constraints that were listed without an architecture.
-/

namespace ConstraintsCores

/-- The unassigned list is emptied into the others: each of its entries has moved
once, and nothing else has. -/
structure Redistributed (archs after : Arch2Constraints) : Prop where
  emptied : ∀ ccs, (none, ccs) ∈ after → ccs = []
  moved : (after.flatMap (·.2)).Perm (archs.flatMap (·.2))
  extended :
    ∀ key ccs, key ≠ none → (key, ccs) ∈ archs →
      ∃ more, (key, ccs ++ more) ∈ after

/--
The map is one of architectures to constraints: its keys are different, and its
entries have no architectures but the one that they are listed under.
-/
structure Classified
    (state : ConstraintsCores)
    (archs : Arch2Constraints) : Prop where
  keys : (archs.map (·.1)).Nodup
  listed :
    ∀ key ccs, (key, ccs) ∈ archs → ∀ cc ∈ ccs,
      (state.description cc).getArchitectures ≠ [] ∧
        ∀ arch ∈ (state.description cc).getArchitectures, arch = key

/-- There are other architectures to choose among, and some constraints of one
of them differ by less than `Float.MAX_VALUE`. -/
def HasNearest
    (state : ConstraintsCores)
    (archs : Arch2Constraints)
    (unassigned : Nat) : Prop :=
  ∃ key ccs, key ≠ none ∧ (key, ccs) ∈ archs ∧ ∃ assigned ∈ ccs,
    (state.description unassigned).difference (state.description assigned) <
      FLOAT_MAX_VALUE

/-! ## The nearest architecture -/

theorem difference_setArchitecture_left
    (this other : CloudMethodResourceDescription)
    (arch : Option String) :
    (this.setArchitecture arch).difference other = this.difference other := by
  unfold CloudMethodResourceDescription.setArchitecture
  split
  · rfl
  · rfl

theorem difference_setArchitecture_right
    (this other : CloudMethodResourceDescription)
    (arch : Option String) :
    this.difference (other.setArchitecture arch) = this.difference other := by
  unfold CloudMethodResourceDescription.setArchitecture
  split
  · rfl
  · rfl

theorem description_setArchitecture
    (state : ConstraintsCores)
    (cc : Nat)
    (arch : Option String)
    (other : Nat) :
    (state.setArchitecture cc arch).description other =
      if state.desc other = state.desc cc then
        (state.description other).setArchitecture arch
      else
        state.description other := by
  by_cases shared : state.desc other = state.desc cc
  · simp [setArchitecture, description, shared]
  · simp [setArchitecture, description, shared]

/-- Architectures do not count for the difference. -/
theorem difference_setArchitecture
    (state : ConstraintsCores)
    (cc : Nat)
    (arch : Option String)
    (first second : Nat) :
    ((state.setArchitecture cc arch).description first).difference
        ((state.setArchitecture cc arch).description second) =
      (state.description first).difference (state.description second) := by
  have left (other : CloudMethodResourceDescription) :
      ((state.setArchitecture cc arch).description first).difference other =
        (state.description first).difference other := by
    rw [description_setArchitecture]
    split
    · exact difference_setArchitecture_left _ _ _
    · rfl
  have right (other : CloudMethodResourceDescription) :
      other.difference ((state.setArchitecture cc arch).description second) =
        other.difference (state.description second) := by
    rw [description_setArchitecture]
    split
    · exact difference_setArchitecture_right _ _ _
    · rfl
  rw [left, right]

/-- What the loop over the assigned constraints has found: nothing, if none of
them is near, or the architecture of one of them. -/
theorem foldl_betterArchitecture
    {candidate : CloudMethodResourceDescription}
    {keys : List String}
    {options : List CloudMethodResourceDescription}
    (listed :
      ∀ option ∈ options, ∃ key ∈ keys,
        option.getArchitectures.head? = some (some key))
    {best : Option String × ℚ}
    (isBest :
      best = (none, FLOAT_MAX_VALUE) ∨ ∃ key ∈ keys, best.1 = some key) :
    let found := options.foldl (betterArchitecture candidate) best
    (found = (none, FLOAT_MAX_VALUE) ∨ ∃ key ∈ keys, found.1 = some key) ∧
      (found.1 = none ↔
        best.1 = none ∧
          ∀ option ∈ options,
            FLOAT_MAX_VALUE ≤ candidate.difference option) := by
  induction options generalizing best with
  | nil => exact ⟨isBest, by simp⟩
  | cons option rest hypothesis =>
      obtain ⟨⟨key, isKey, first⟩, listedRest⟩ := forall_mem_cons.mp listed
      rw [foldl_cons]
      have positive : (0 : ℚ) ≤ FLOAT_MAX_VALUE := by
        norm_num [FLOAT_MAX_VALUE]
      rcases isBest with rfl | ⟨bestKey, isBestKey, ofBest⟩
      · by_cases near : candidate.difference option < FLOAT_MAX_VALUE
        · have taken :
              betterArchitecture candidate (none, FLOAT_MAX_VALUE) option =
                (some key, candidate.difference option) := by
            simp [betterArchitecture, near, positive, first]
          have isTaken :
              (betterArchitecture candidate (none, FLOAT_MAX_VALUE) option).1 =
                some key := by
            rw [taken]
          obtain ⟨isFound, isNone⟩ :=
            hypothesis listedRest (.inr ⟨key, isKey, isTaken⟩)
          refine ⟨isFound, isNone.trans (iff_of_false ?_ ?_)⟩
          · rw [isTaken]
            exact fun both => nomatch both.1
          rintro ⟨_, allFar⟩
          exact absurd near
            (not_lt.mpr (allFar option mem_cons_self))
        · have passed :
              betterArchitecture candidate (none, FLOAT_MAX_VALUE) option =
                (none, FLOAT_MAX_VALUE) := by
            simp [betterArchitecture, near, not_lt.mpr positive]
          rw [passed]
          obtain ⟨isFound, isNone⟩ := hypothesis listedRest (.inl rfl)
          refine ⟨isFound, isNone.trans ?_⟩
          simp [not_lt.mp near]
      · have kept :
            ∃ next ∈ keys,
              (betterArchitecture candidate best option).1 = some next := by
          rw [betterArchitecture]
          split
          · exact ⟨key, isKey, by rw [first]; rfl⟩
          · exact ⟨bestKey, isBestKey, ofBest⟩
        obtain ⟨next, isNext, ofNext⟩ := kept
        obtain ⟨isFound, isNone⟩ :=
          hypothesis listedRest (.inr ⟨next, isNext, ofNext⟩)
        refine ⟨isFound, isNone.trans (iff_of_false ?_ ?_)⟩
        · rw [ofNext]
          exact fun both => nomatch both.1
        · rw [ofBest]
          exact fun both => nomatch both.1

/-! ## The loop over the unassigned constraints -/

/-- What the loop does not change: differences, and the descriptions of the
assigned constraints -/
structure KeptFrom
    (start : ConstraintsCores)
    (assignedList : List Nat)
    (state : ConstraintsCores) : Prop where
  desc : state.desc = start.desc
  differences :
    ∀ first second,
      (state.description first).difference (state.description second) =
        (start.description first).difference (start.description second)
  options :
    ∀ option ∈ assignedList,
      state.description option = start.description option

section Loop

variable
  {start state : ConstraintsCores}
  {assignedList unassignedList : List Nat}
  {keys : List String}
  {unassigned : Nat}

theorem KeptFrom.setArchitecture
    (kept : KeptFrom start assignedList state)
    (separate :
      ∀ option ∈ assignedList, start.desc option ≠ start.desc unassigned)
    (arch : Option String) :
    KeptFrom start assignedList (state.setArchitecture unassigned arch) where
  desc := kept.desc
  differences := by
    intro first second
    rw [difference_setArchitecture, kept.differences]
  options := by
    intro option member
    rw [description_setArchitecture, kept.desc, if_neg (separate option member),
      kept.options option member]

/-- The best architecture is that of an assigned constraint, unless none of them
is near. -/
theorem KeptFrom.bestArch
    (kept : KeptFrom start assignedList state)
    (listed :
      ∀ option ∈ assignedList, ∃ key ∈ keys,
        (start.description option).getArchitectures.head? = some (some key))
    (unassigned : Nat) :
    (state.bestArch assignedList unassigned = none ↔
        ∀ option ∈ assignedList,
          FLOAT_MAX_VALUE ≤
            (start.description unassigned).difference
              (start.description option)) ∧
      ∀ arch, state.bestArch assignedList unassigned = arch →
        arch = none ∨ ∃ key ∈ keys, arch = some key := by
  have listedNow :
      ∀ option ∈ assignedList.map state.description, ∃ key ∈ keys,
        option.getArchitectures.head? = some (some key) := by
    rw [forall_mem_map]
    intro option member
    rw [kept.options option member]
    exact listed option member
  obtain ⟨isFound, isNone⟩ :=
    @foldl_betterArchitecture (state.description unassigned) keys _ listedNow
      (none, FLOAT_MAX_VALUE) (.inl rfl)
  constructor
  · rw [ConstraintsCores.bestArch, isNone, forall_mem_map]
    simp only [true_and, kept.differences]
  · rintro arch rfl
    rcases isFound with nothing | found
    · left
      rw [ConstraintsCores.bestArch, nothing]
    · exact .inr found

/-- Constraints that nothing is near come back to the list for ever. -/
theorem assignArchitectures_unending
    (listed :
      ∀ option ∈ assignedList, ∃ key ∈ keys,
        (start.description option).getArchitectures.head? = some (some key))
    (far :
      ∀ option ∈ assignedList,
        FLOAT_MAX_VALUE ≤
          (start.description unassigned).difference (start.description option))
    (member : unassigned ∈ unassignedList)
    (separate :
      ∀ other ∈ unassignedList, ∀ option ∈ assignedList,
        start.desc option ≠ start.desc other)
    (kept : KeptFrom start assignedList state)
    (rounds : Nat)
    (archs : Arch2Constraints) :
    assignArchitectures assignedList rounds unassignedList state archs =
      none := by
  induction rounds generalizing unassignedList state archs with
  | zero =>
      cases unassignedList with
      | nil => exact absurd member not_mem_nil
      | cons first rest => rfl
  | succ rounds hypothesis =>
      cases unassignedList with
      | nil => exact absurd member not_mem_nil
      | cons first rest =>
          obtain ⟨ofFirst, ofRest⟩ := forall_mem_cons.mp separate
          have keptNext :=
            kept.setArchitecture ofFirst (state.bestArch assignedList first)
          rw [assignArchitectures]
          by_cases unassignedAgain : state.bestArch assignedList first = none
          · rw [if_pos unassignedAgain]
            refine hypothesis ?_ ?_ keptNext archs
            · rcases mem_cons.mp member with rfl | later
              · exact mem_append_right rest (mem_singleton_self _)
              · exact mem_append_left [first] later
            · intro other inNext
              rcases mem_append.mp inNext with inRest | last
              · exact ofRest other inRest
              · rw [mem_singleton.mp last]
                exact ofFirst
          · rw [if_neg unassignedAgain]
            have isOther : unassigned ≠ first := by
              rintro rfl
              exact unassignedAgain
                ((kept.bestArch listed unassigned).1.mpr far)
            have later := (mem_cons.mp member).resolve_left isOther
            split
            · exact hypothesis later ofRest keptNext _
            · rfl

/-- If each of them is near something, each is moved in its round. -/
theorem assignArchitectures_ends
    (listed :
      ∀ option ∈ assignedList, ∃ key ∈ keys,
        (start.description option).getArchitectures.head? = some (some key))
    {archs : Arch2Constraints}
    (known : ∀ key ∈ keys, some key ∈ archs.map (·.1))
    (near :
      ∀ unassigned ∈ unassignedList, ∃ option ∈ assignedList,
        (start.description unassigned).difference (start.description option) <
          FLOAT_MAX_VALUE)
    (separate :
      ∀ other ∈ unassignedList, ∀ option ∈ assignedList,
        start.desc option ≠ start.desc other)
    (kept : KeptFrom start assignedList state) :
    (assignArchitectures assignedList unassignedList.length unassignedList state
      archs).isSome := by
  induction unassignedList generalizing state archs with
  | nil => rfl
  | cons first rest hypothesis =>
      obtain ⟨ofFirst, ofRest⟩ := forall_mem_cons.mp separate
      obtain ⟨nearFirst, nearRest⟩ := forall_mem_cons.mp near
      obtain ⟨isNone, isKey⟩ := kept.bestArch listed first
      have assigned : state.bestArch assignedList first ≠ none := by
        intro unassigned
        obtain ⟨option, member, isNear⟩ := nearFirst
        exact absurd isNear (not_lt.mpr (isNone.mp unassigned option member))
      obtain ⟨key, inKeys, isBest⟩ :=
        (isKey _ rfl).resolve_left assigned
      have hasList :
          archs.any (fun entry =>
            entry.1 = state.bestArch assignedList first) = true := by
        obtain ⟨entry, inArchs, same⟩ := mem_map.mp (known key inKeys)
        exact any_eq_true.mpr
          ⟨entry, inArchs, by simp only [same, isBest, decide_true]⟩
      rw [length_cons, assignArchitectures, if_neg assigned,
        if_pos hasList]
      refine hypothesis ?_ nearRest ofRest
        (kept.setArchitecture ofFirst _)
      intro other inOther
      rw [addTo, map_map]
      exact known other inOther

end Loop

/-! ## Where the constraints are moved -/

section Moves

variable {archs : Arch2Constraints}

theorem keys_addTo (key : Option String) (ccs : List Nat) :
    (addTo archs key ccs).map (·.1) = archs.map (·.1) := by
  rw [addTo, map_map]
  rfl

theorem addTo_cons
    (other key : Option String)
    (arch ccs : List Nat) :
    addTo ((other, arch) :: archs) key ccs =
      (other, if other = key then arch ++ ccs else arch) ::
        addTo archs key ccs :=
  rfl

variable
  {key : Option String}
  {arch : List Nat}

theorem mem_addTo
    (member : (key, arch) ∈ archs)
    (other : Option String)
    (ccs : List Nat) :
    (key, if key = other then arch ++ ccs else arch) ∈
      addTo archs other ccs :=
  mem_map.mpr ⟨(key, arch), member, rfl⟩

theorem addTo_of_absent
    (absent : key ∉ archs.map (·.1))
    (ccs : List Nat) :
    addTo archs key ccs = archs := by
  induction archs with
  | nil => rfl
  | cons entry rest hypothesis =>
      obtain ⟨other, arch⟩ := entry
      obtain ⟨isOther, inRest⟩ := not_or.mp (mem_cons.not.mp absent)
      rw [addTo_cons, if_neg (Ne.symm isOther), hypothesis inRest]

/-- One list gets longer. -/
theorem flatMap_addTo
    (nodup : (archs.map (·.1)).Nodup)
    (present : key ∈ archs.map (·.1))
    (ccs : List Nat) :
    ((addTo archs key ccs).flatMap (·.2)).Perm
      (ccs ++ archs.flatMap (·.2)) := by
  induction archs with
  | nil => exact absurd present not_mem_nil
  | cons entry rest hypothesis =>
      obtain ⟨other, arch⟩ := entry
      rw [map_cons, nodup_cons] at nodup
      rw [map_cons] at present
      rw [addTo_cons, flatMap_cons, flatMap_cons]
      by_cases same : other = key
      · have absent : key ∉ rest.map (·.1) := same ▸ nodup.1
        rw [if_pos same, addTo_of_absent absent, ← append_assoc]
        exact perm_append_comm.append_right _
      · have later := hypothesis nodup.2
          ((mem_cons.mp present).resolve_left (Ne.symm same))
        rw [if_neg same]
        exact (later.append_left arch).trans (perm_append_comm_assoc ..)

/-- What the loop does to the map -/
theorem assignArchitectures_moves
    {assignedList unassignedList : List Nat}
    {rounds : Nat}
    {state final : ConstraintsCores}
    {after : Arch2Constraints}
    (nodup : (archs.map (·.1)).Nodup)
    (finished :
      assignArchitectures assignedList rounds unassignedList state archs =
        some (final, after)) :
    (after.flatMap (·.2)).Perm (unassignedList ++ archs.flatMap (·.2)) ∧
      (∀ ccs, (none, ccs) ∈ after → (none, ccs) ∈ archs) ∧
      ∀ key ccs, (key, ccs) ∈ archs → ∃ more, (key, ccs ++ more) ∈ after := by
  induction rounds generalizing state unassignedList archs with
  | zero =>
      cases unassignedList with
      | nil =>
          cases finished
          exact ⟨.refl _, fun _ member => member,
            fun key ccs member => ⟨[], by rwa [append_nil]⟩⟩
      | cons first rest => exact nomatch finished
  | succ rounds hypothesis =>
      cases unassignedList with
      | nil =>
          cases finished
          exact ⟨.refl _, fun _ member => member,
            fun key ccs member => ⟨[], by rwa [append_nil]⟩⟩
      | cons first rest =>
          rw [assignArchitectures] at finished
          by_cases again : state.bestArch assignedList first = none
          · rw [if_pos again] at finished
            obtain ⟨moved, unassigned, extended⟩ :=
              hypothesis nodup finished
            refine ⟨moved.trans ?_, unassigned, extended⟩
            rw [append_assoc]
            exact perm_middle
          · rw [if_neg again] at finished
            split at finished
            case isTrue hasList =>
              obtain ⟨entry, inArchs, same⟩ := any_eq_true.mp hasList
              have present :
                  state.bestArch assignedList first ∈ archs.map (·.1) := by
                rw [← of_decide_eq_true same]
                exact mem_map_of_mem inArchs
              obtain ⟨moved, unassigned, extended⟩ :=
                hypothesis (by rwa [keys_addTo]) finished
              refine ⟨moved.trans ?_, ?_, ?_⟩
              · have added := flatMap_addTo nodup present [first]
                exact (added.append_left rest).trans perm_middle
              · intro ccs member
                obtain ⟨⟨key, others⟩, inOld, isEntry⟩ :=
                  mem_map.mp (unassigned ccs member)
                obtain ⟨rfl, rfl⟩ := Prod.mk.inj isEntry
                rwa [if_neg (Ne.symm again)]
              · intro key ccs member
                have added := mem_addTo member
                  (state.bestArch assignedList first) [first]
                by_cases chosen : key = state.bestArch assignedList first
                · rw [if_pos chosen] at added
                  obtain ⟨more, inAfter⟩ := extended key (ccs ++ [first]) added
                  exact ⟨[first] ++ more, by rwa [← append_assoc]⟩
                · rw [if_neg chosen] at added
                  exact extended key ccs added
            case isFalse => exact nomatch finished

/-- The map without the entries of the unassigned list -/
def emptied (archs : Arch2Constraints) : Arch2Constraints :=
  archs.map fun (key, arch) => (key, if key = none then [] else arch)

theorem mem_emptied
    (member : (key, arch) ∈ archs) :
    (key, if key = none then [] else arch) ∈ emptied archs :=
  mem_map.mpr ⟨(key, arch), member, rfl⟩

theorem emptied_of_assigned
    (assigned : none ∉ archs.map (·.1)) :
    emptied archs = archs := by
  induction archs with
  | nil => rfl
  | cons entry rest hypothesis =>
      obtain ⟨key, arch⟩ := entry
      obtain ⟨isAssigned, inRest⟩ := not_or.mp (mem_cons.not.mp assigned)
      have later := hypothesis inRest
      rw [emptied] at later ⊢
      rw [map_cons, later]
      simp [Ne.symm isAssigned]

theorem flatMap_emptied
    {unassignedList : List Nat}
    (nodup : (archs.map (·.1)).Nodup)
    (member : (none, unassignedList) ∈ archs) :
    (unassignedList ++ (emptied archs).flatMap (·.2)).Perm
      (archs.flatMap (·.2)) := by
  induction archs with
  | nil => exact absurd member not_mem_nil
  | cons entry rest hypothesis =>
      obtain ⟨key, arch⟩ := entry
      rw [map_cons, nodup_cons] at nodup
      have split :
          emptied ((key, arch) :: rest) =
            (key, if key = none then [] else arch) :: emptied rest :=
        rfl
      rw [split, flatMap_cons, flatMap_cons]
      rcases mem_cons.mp member with first | later
      · obtain ⟨rfl, rfl⟩ := Prod.mk.inj first
        rw [emptied_of_assigned nodup.1, if_pos rfl, nil_append]
      · have assigned : key ≠ none := by
          rintro rfl
          exact nodup.1 (mem_map.mpr ⟨_, later, rfl⟩)
        rw [if_neg assigned]
        exact (perm_append_comm_assoc ..).trans
          ((hypothesis nodup.2 later).append_left arch)

/-- Without entries in the unassigned list nothing has to move. -/
theorem Redistributed.refl
    (empty : ∀ ccs, (none, ccs) ∈ archs → ccs = []) :
    Redistributed archs archs where
  emptied := empty
  moved := .refl _
  extended := by
    intro key ccs _ member
    exact ⟨[], by rwa [append_nil]⟩

end Moves

/-! ## When the constraints are redistributed -/

section Outcome

variable
  {state : ConstraintsCores}
  {archs : Arch2Constraints}

theorem Classified.unique
    (classified : Classified state archs)
    {key : Option String}
    {first second : List Nat}
    (isFirst : (key, first) ∈ archs)
    (isSecond : (key, second) ∈ archs) :
    first = second := by
  have same := inj_on_of_nodup_map classified.keys isFirst isSecond rfl
  exact (Prod.mk.inj same).2

/-- The constraints of the other architectures -/
def assignedOf (archs : Arch2Constraints) : List Nat :=
  (archs.filter fun entry => entry.1 ≠ none).flatMap (·.2)

theorem mem_assignedOf {cc : Nat} :
    cc ∈ assignedOf archs ↔
      ∃ key ccs, key ≠ none ∧ (key, ccs) ∈ archs ∧ cc ∈ ccs := by
  simp only [assignedOf, mem_flatMap, mem_filter, Prod.exists,
    decide_eq_true_eq]
  constructor
  · rintro ⟨key, ccs, ⟨member, assigned⟩, inCcs⟩
    exact ⟨key, ccs, assigned, member, inCcs⟩
  · rintro ⟨key, ccs, assigned, member, inCcs⟩
    exact ⟨key, ccs, ⟨member, assigned⟩, inCcs⟩

theorem Classified.assigned
    (classified : Classified state archs) :
    ∀ option ∈ assignedOf archs, ∃ key ∈ archs.filterMap (·.1),
      (state.description option).getArchitectures.head? =
        some (some key) := by
  intro option member
  obtain ⟨key, ccs, assigned, inArchs, inCcs⟩ := mem_assignedOf.mp member
  obtain ⟨nonempty, ofKey⟩ := classified.listed key ccs inArchs option inCcs
  obtain ⟨name, rfl⟩ := Option.ne_none_iff_exists'.mp assigned
  refine ⟨name, mem_filterMap.mpr ⟨_, inArchs, rfl⟩, ?_⟩
  cases architectures : (state.description option).getArchitectures with
  | nil => exact absurd architectures nonempty
  | cons first rest =>
      rw [head?_cons, ofKey first (architectures ▸ mem_cons_self)]

variable {unassignedList : List Nat}

/-- Constraints of different architectures have descriptions of their own. -/
theorem Classified.separate
    (classified : Classified state archs)
    (inArchs : (none, unassignedList) ∈ archs) :
    ∀ other ∈ unassignedList, ∀ option ∈ assignedOf archs,
      state.desc option ≠ state.desc other := by
  intro other inUnassigned option member shared
  obtain ⟨key, ccs, assigned, isEntry, inCcs⟩ := mem_assignedOf.mp member
  obtain ⟨nonempty, ofKey⟩ := classified.listed key ccs isEntry option inCcs
  obtain ⟨_, ofNone⟩ :=
    classified.listed none unassignedList inArchs other inUnassigned
  have same : state.description option = state.description other := by
    rw [description, description, shared]
  obtain ⟨arch, isArch⟩ := exists_mem_of_ne_nil _ nonempty
  exact assigned ((ofKey arch isArch).symm.trans (ofNone arch (same ▸ isArch)))

theorem keptFrom_self (assignedList : List Nat) :
    KeptFrom state assignedList state where
  desc := rfl
  differences := fun _ _ => rfl
  options := fun _ _ => rfl

/-- With two or more other architectures the loop decides. -/
theorem redistributed_loop_iff
    (classified : Classified state archs)
    (inArchs : (none, unassignedList) ∈ archs) :
    (∃ rounds final after,
        assignArchitectures (assignedOf archs) rounds unassignedList state
            (emptied archs) = some (final, after) ∧
          Redistributed archs after) ↔
      ∀ unassigned ∈ unassignedList, HasNearest state archs unassigned := by
  have separate := classified.separate inArchs
  constructor
  · rintro ⟨rounds, final, after, finished, -⟩ unassigned member
    by_contra noNearest
    have far :
        ∀ option ∈ assignedOf archs,
          FLOAT_MAX_VALUE ≤
            (state.description unassigned).difference
              (state.description option) := by
      intro option isOption
      obtain ⟨key, ccs, assigned, isEntry, inCcs⟩ := mem_assignedOf.mp isOption
      exact not_lt.mp fun near =>
        noNearest ⟨key, ccs, assigned, isEntry, option, inCcs, near⟩
    rw [assignArchitectures_unending classified.assigned far member separate
      (keptFrom_self _)] at finished
    exact nomatch finished
  · intro nearest
    have known :
        ∀ key ∈ archs.filterMap (·.1),
          some key ∈ (emptied archs).map (·.1) := by
      intro key isKey
      obtain ⟨entry, isEntry, same⟩ := mem_filterMap.mp isKey
      rw [emptied, map_map]
      exact mem_map.mpr ⟨entry, isEntry, same⟩
    have near :
        ∀ unassigned ∈ unassignedList, ∃ option ∈ assignedOf archs,
          (state.description unassigned).difference
            (state.description option) < FLOAT_MAX_VALUE := by
      intro unassigned member
      obtain ⟨key, ccs, assigned, isEntry, option, inCcs, isNear⟩ :=
        nearest unassigned member
      exact ⟨option, mem_assignedOf.mpr ⟨key, ccs, assigned, isEntry, inCcs⟩,
        isNear⟩
    obtain ⟨⟨final, after⟩, finished⟩ := Option.isSome_iff_exists.mp
      (assignArchitectures_ends classified.assigned known near separate
        (keptFrom_self _))
    have nodup : ((emptied archs).map (·.1)).Nodup := by
      rw [emptied, map_map]
      exact classified.keys
    obtain ⟨moved, unassigned, extended⟩ :=
      assignArchitectures_moves nodup finished
    refine ⟨_, final, after, finished, ?_, ?_, ?_⟩
    · intro ccs isEntry
      obtain ⟨⟨key, others⟩, _, same⟩ := mem_map.mp (unassigned ccs isEntry)
      obtain ⟨rfl, rfl⟩ := Prod.mk.inj same
      rfl
    · exact moved.trans (flatMap_emptied classified.keys inArchs)
    · intro key ccs assigned isEntry
      have remains := mem_emptied isEntry
      rw [if_neg assigned] at remains
      exact extended key ccs remains

/-- The method comes to an end with everything redistributed. -/
def Redistributes
    (state : ConstraintsCores)
    (archs : Arch2Constraints) : Prop :=
  ∃ rounds final after,
    reassignUnassignedConstraints rounds state archs = some (final, after) ∧
      Redistributed archs after

variable (classified : Classified state archs)

include classified

/-- With a single other architecture the list is copied and not emptied. -/
theorem redistributed_copied_iff
    (inArchs : (none, unassignedList) ∈ archs) :
    Redistributed archs
        (archs.map fun (key, arch) =>
          (key, if key = none then arch else arch ++ unassignedList)) ↔
      unassignedList = [] := by
  constructor
  · intro redistributed
    exact redistributed.emptied unassignedList
      (mem_map.mpr ⟨(none, unassignedList), inArchs, rfl⟩)
  · rintro rfl
    have unchanged :
        (archs.map fun (key, arch) =>
          (key, if key = none then arch else arch ++ [])) = archs := by
      simp
    rw [unchanged]
    exact .refl fun ccs member => classified.unique member inArchs

/--
The unassigned constraints are redistributed exactly when there are none, or when
there are two other architectures or more and each of the constraints is near
some constraints of those.
-/
theorem redistributes_iff :
    Redistributes state archs ↔
      ∀ unassignedList, (none, unassignedList) ∈ archs →
        unassignedList = [] ∨
          3 ≤ archs.length ∧
            ∀ unassigned ∈ unassignedList,
              HasNearest state archs unassigned := by
  cases found : archs.lookup none with
  | none =>
      have absent (ccs : List Nat) : (none, ccs) ∉ archs := by
        intro member
        exact absurd rfl
          (bne_iff_ne.mp (lookup_eq_none_iff.mp found _ member))
      refine iff_of_true ⟨0, state, archs, ?_, ?_⟩ ?_
      · rw [reassignUnassignedConstraints, found]
      · exact .refl fun ccs member => absurd member (absent ccs)
      · intro ccs member
        exact absurd member (absent ccs)
  | some unassignedList =>
      have inArchs : (none, unassignedList) ∈ archs := by
        obtain ⟨before, after, split, _⟩ := lookup_eq_some_iff.mp found
        rw [split]
        exact mem_append_right before mem_cons_self
      have onlyList :
          (∀ ccs, (none, ccs) ∈ archs →
            ccs = [] ∨ 3 ≤ archs.length ∧
              ∀ unassigned ∈ ccs, HasNearest state archs unassigned) ↔
            (unassignedList = [] ∨ 3 ≤ archs.length ∧
              ∀ unassigned ∈ unassignedList,
                HasNearest state archs unassigned) := by
        constructor
        · intro all
          exact all unassignedList inArchs
        · intro one ccs member
          rwa [classified.unique member inArchs]
      rw [onlyList, Redistributes]
      simp only [reassignUnassignedConstraints, found]
      by_cases single : archs.length = 1
      · simp only [single, if_true, Option.some.injEq, Prod.mk.injEq]
        constructor
        · rintro ⟨_, _, _, ⟨rfl, rfl⟩, redistributed⟩
          exact .inl (redistributed.emptied _ inArchs)
        · rintro (rfl | ⟨several, _⟩)
          · exact ⟨0, state, archs, ⟨rfl, rfl⟩,
              .refl fun ccs member => classified.unique member inArchs⟩
          · exact absurd several (by decide)
      · by_cases double : archs.length = 2
        · simp only [if_neg single, if_pos double, Option.some.injEq,
            Prod.mk.injEq]
          constructor
          · rintro ⟨_, _, _, ⟨rfl, rfl⟩, redistributed⟩
            exact .inl
              ((redistributed_copied_iff classified inArchs).mp redistributed)
          · rintro (empty | ⟨several, _⟩)
            · exact ⟨0, state, _, ⟨rfl, rfl⟩,
                (redistributed_copied_iff classified inArchs).mpr empty⟩
            · omega
        · have several : 3 ≤ archs.length := by
            have nonempty := length_pos_of_mem inArchs
            omega
          simp only [single, double, if_false, several, true_and]
          refine (redistributed_loop_iff classified inArchs).trans ?_
          constructor
          · exact .inr
          · rintro (rfl | nearest)
            · exact fun _ member => absurd member not_mem_nil
            · exact nearest

end Outcome

/--
If the unassigned architecture is missing or the only one, the map is left as it
is.  With two other architectures or more, all the constraints that are near
some assigned ones are redistributed.
-/
theorem reassigned
    {state : ConstraintsCores}
    {archs : Arch2Constraints}
    (classified : Classified state archs) :
    (((∀ ccs, (none, ccs) ∉ archs) ∨ archs.length = 1) →
        reassignUnassignedConstraints 0 state archs = some (state, archs)) ∧
      (3 ≤ archs.length →
        (∀ ccs, (none, ccs) ∈ archs →
          ∀ unassigned ∈ ccs, HasNearest state archs unassigned) →
        Redistributes state archs) := by
  constructor
  · intro nowhere
    rw [reassignUnassignedConstraints]
    split
    · rfl
    · rename_i found
      obtain ⟨before, after, split, _⟩ := lookup_eq_some_iff.mp found
      have inArchs : (none, _) ∈ archs :=
        split ▸ mem_append_right before mem_cons_self
      rcases nowhere with absent | single
      · exact absurd inArchs (absent _)
      · rw [if_pos single]
  · intro several nearest
    exact (redistributes_iff classified).mpr fun ccs member =>
      .inr ⟨several, nearest ccs member⟩

/-- One processor of an architecture, or without one -/
def ofArch (arch : Option String) : CloudMethodResourceDescription :=
  { CloudMethodResourceDescription.empty with
    toMethodResourceDescription :=
      MethodResourceDescription.empty.addProcessor
        ⟨{ ProcessorKind.unassigned with architecture := arch }, 1⟩ }

/-- Constraints 0 and 1 have an architecture, the others have none. -/
def threeMethods : ConstraintsCores where
  desc cc := cc
  described cc := ofArch (["amd64", "arm"][cc]?)
  cores _ _ := false
  unfulfilledConstraints _ := []
  joined _ := []
  kept := true

theorem redistributes_threeMethods :
    Redistributes threeMethods
      [(some "amd64", [0]), (none, [2]), (some "arm", [1])] := by
  refine (reassigned ⟨by decide, ?_⟩).2 (by decide) ?_
  · intro key ccs member
    simp only [mem_cons, Prod.mk.injEq, not_mem_nil, or_false] at member
    rcases member with ⟨rfl, rfl⟩ | ⟨rfl, rfl⟩ | ⟨rfl, rfl⟩
    all_goals decide
  · intro ccs member unassigned inCcs
    refine ⟨some "amd64", [0], Option.some_ne_none _, mem_cons_self, 0,
      mem_singleton_self 0, ?_⟩
    obtain rfl : ccs = [2] := by simpa using member
    obtain rfl := mem_singleton.mp inCcs
    have same :
        (threeMethods.description 2).difference
          (threeMethods.description 0) = 0 := by
      have units :
          (threeMethods.description 2).totalComputingUnits =
            (threeMethods.description 0).totalComputingUnits :=
        rfl
      have memory :
          (threeMethods.description 2).memorySize =
            (threeMethods.description 0).memorySize :=
        rfl
      simp [difference, otherUnits, units, memory]
    rw [same]
    norm_num [FLOAT_MAX_VALUE]

/-- Without another architecture the constraints stay where they are. -/
theorem not_redistributes_unassignedOnly :
    Classified threeMethods [(none, [2])] ∧
      ¬ Redistributes threeMethods [(none, [2])] := by
  constructor
  · refine ⟨by decide, ?_⟩
    intro key ccs member
    obtain ⟨rfl, rfl⟩ := Prod.mk.inj (mem_singleton.mp member)
    decide
  · rintro ⟨rounds, final, after, finished, redistributed⟩
    cases finished
    exact absurd (redistributed.emptied [2] mem_cons_self) (by decide)

end ConstraintsCores

end DistributedRdf.Resources
