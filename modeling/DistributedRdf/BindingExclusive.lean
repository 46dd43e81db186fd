import DistributedRdf.ThreadBinding
import DistributedRdf.TransitionSystem

namespace DistributedRdf.Nio

open Java Execution List

/-!
# Which slots a job is bound to

A slot is a place in the two lists.  Every operation ends with a reordering of
the sockets, which moves whole sockets in both lists alike.
-/

abbrev Slot := Nat × Nat

namespace BindToMap

variable
  (binder : BindToMap)
  (slot : Slot)

/-- The job that holds a slot, or `-1`. -/
def holder : Option Int :=
  (binder.bindedCPUs[slot.1]?).bind (·[slot.2]?)

def idAt : Option Int :=
  (binder.idList[slot.1]?).bind (·[slot.2]?)

def SameLengths : Prop :=
  binder.idList.map length = binder.bindedCPUs.map length

def freeSlots : Nat :=
  (binder.bindedCPUs.map getAvailableSlots).sum

/-- The sockets are the same, in another order. -/
def Rearranged (before after : BindToMap) : Prop :=
  ∃ order : List Nat,
    order.Perm (range before.bindedCPUs.length) ∧
      after.idList = order.map (before.idList.getD · []) ∧
      after.bindedCPUs = order.map (before.bindedCPUs.getD · [])

variable
  (before : BindToMap)
  (jobId : JobId)
  (numCUs : Nat)

/-- The job got as many different slots as it asked for, all of them free. -/
structure Granted
    (assignedCoreUnits : List Int)
    (slots : List Slot)
    (bound : BindToMap) : Prop where
  different : slots.Nodup
  enough : slots.length = numCUs
  free : ∀ slot ∈ slots, before.holder slot = some (-1)
  ids : slots.map before.idAt = assignedCoreUnits.map some
  sameIds : bound.idList = before.idList
  sameLengths : bound.bindedCPUs.map length =
    before.bindedCPUs.map length
  holders :
    ∀ slot,
      bound.holder slot =
        if slot ∈ slots then some (jobId : Int) else before.holder slot

/-- What is promised of a bind: it is served if and only if it can be. -/
structure BindMeets : Prop where
  served :
    numCUs ≤ before.freeSlots →
      ∃ after assignedCoreUnits slots bound,
        before.bindComputingUnits jobId numCUs =
            .returned after (.bound assignedCoreUnits) ∧
          Granted before jobId numCUs assignedCoreUnits slots bound ∧
          bound.Rearranged after
  refused :
    before.freeSlots < numCUs →
      before.bindComputingUnits jobId numCUs =
        .returned before .unsufficientAvailableComputingUnits

/-- A release frees the slots of the job and no others. -/
def ReleaseMeets : Prop :=
  ∃ released : BindToMap,
    released.idList = before.idList ∧
      released.bindedCPUs.map length =
        before.bindedCPUs.map length ∧
      (∀ slot,
        released.holder slot =
          if before.holder slot = some (jobId : Int) then some (-1)
          else before.holder slot) ∧
      released.Rearranged (before.releaseComputingUnits jobId)

end BindToMap

/-- The free slots of the sockets in front of the first one without any. -/
def freeInFront (sockets : List (List Int)) : Nat :=
  ((sockets.takeWhile (getAvailableSlots · > 0)).map getAvailableSlots).sum

/-- The search stays within the sockets, and finds what there is. -/
def BindToMap.SearchServes (binder : BindToMap) (numCUs : Nat) : Prop :=
  numCUs ≤ freeInFront binder.bindedCPUs ∨
    binder.freeSlots < numCUs ∧
      ∃ socket ∈ binder.bindedCPUs, getAvailableSlots socket = 0

/-!
## The search
-/

theorem freeInFront_cons_free
    {socket : List Int}
    (free : getAvailableSlots socket > 0)
    (rest : List (List Int)) :
    freeInFront (socket :: rest) =
      getAvailableSlots socket + freeInFront rest := by
  simp [freeInFront, free]

theorem freeInFront_cons_full
    {socket : List Int}
    (full : getAvailableSlots socket = 0)
    (rest : List (List Int)) :
    freeInFront (socket :: rest) = 0 := by
  simp [freeInFront, full]

variable
  {sockets : List (List Int)}
  {amount : Nat}

/-- The search takes sockets from the front until they suffice. -/
theorem search_found
    (some : sockets ≠ [])
    (enough : amount ≤ freeInFront sockets)
    (index : Nat) :
    ∃ count, count ≤ sockets.length ∧
      recursiveBindingComputingUnits sockets amount index =
        .found (range' index count).reverse ∧
      amount ≤ ((sockets.take count).map getAvailableSlots).sum := by
  induction sockets generalizing amount index with
  | nil => exact absurd rfl some
  | cons socket rest hypothesis =>
      rw [recursiveBindingComputingUnits]
      by_cases here : getAvailableSlots socket ≥ amount
      · exact ⟨1, by simp, by simp [here], by simpa using here⟩
      · have free : getAvailableSlots socket > 0 := by
          by_contra notFree
          have full := Nat.eq_zero_of_not_pos notFree
          rw [freeInFront_cons_full full] at enough
          exact here (enough.trans (Nat.zero_le _))
        rw [freeInFront_cons_free free] at enough
        have restEnough :
            amount - getAvailableSlots socket ≤ freeInFront rest :=
          Nat.sub_le_iff_le_add'.mpr enough
        have restSome : rest ≠ [] := by
          rintro rfl
          exact here enough
        rcases hypothesis restSome restEnough (index + 1) with
          ⟨count, inside, found, sum⟩
        refine ⟨count + 1, Nat.succ_le_succ inside, ?_, ?_⟩
        · simp only [here, free, found, if_true, if_false, range'_succ,
            reverse_cons]
        · rw [take_succ_cons, map_cons, sum_cons]
          exact Nat.sub_le_iff_le_add'.mp sum

/-- Where the search ends if the sockets in front do not suffice. -/
theorem search_notFound
    (tooFew : freeInFront sockets < amount)
    (index : Nat) :
    recursiveBindingComputingUnits sockets amount index =
      if ∃ socket ∈ sockets, getAvailableSlots socket = 0 then
        .null
      else
        .indexOutOfBounds := by
  induction sockets generalizing amount index with
  | nil => simp [recursiveBindingComputingUnits]
  | cons socket rest hypothesis =>
      rw [recursiveBindingComputingUnits]
      by_cases free : getAvailableSlots socket > 0
      · rw [freeInFront_cons_free free] at tooFew
        have notHere : ¬ getAvailableSlots socket ≥ amount :=
          Nat.not_le_of_lt ((Nat.le_add_right _ _).trans_lt tooFew)
        have notFull : getAvailableSlots socket ≠ 0 := Nat.ne_of_gt free
        have restTooFew :
            freeInFront rest < amount - getAvailableSlots socket :=
          Nat.lt_sub_iff_add_lt'.mpr tooFew
        rw [if_neg notHere, if_pos free, hypothesis restTooFew]
        by_cases fullLater : ∃ later ∈ rest, getAvailableSlots later = 0
        · simp [fullLater, notFull]
        · simp [fullLater, notFull]
      · have full : getAvailableSlots socket = 0 := Nat.eq_zero_of_not_pos free
        rw [freeInFront_cons_full full] at tooFew
        have notHere : ¬ getAvailableSlots socket ≥ amount := by
          rw [full]
          exact Nat.not_le_of_lt tooFew
        rw [if_neg notHere, if_neg free,
          if_pos ⟨socket, mem_cons_self, full⟩]

/-!
## The assignment
-/

/-- Some free slots of one socket were given to the job. -/
structure SlotsTaken
    (jobId : JobId)
    (slots ids assigned after : List Int)
    (taken : List Nat) : Prop where
  once : taken.Nodup
  free : ∀ i ∈ taken, slots[i]? = some (-1)
  ids : taken.map (ids[·]?) = assigned.map some
  sameSlots : after.length = slots.length
  holders :
    ∀ i : Nat,
      after[i]? = if i ∈ taken then some (jobId : Int) else slots[i]?

namespace SlotsTaken

variable
  {jobId : JobId}
  {slots ids assigned after : List Int}
  {taken : List Nat}

theorem none (slots ids : List Int) : SlotsTaken jobId slots ids [] slots [] where
  once := nodup_nil
  free := by simp
  ids := rfl
  sameSlots := rfl
  holders := by simp

theorem takeFirst
    (rest : SlotsTaken jobId slots ids assigned after taken)
    (id : Int) :
    SlotsTaken jobId (-1 :: slots) (id :: ids) (id :: assigned)
      ((jobId : Int) :: after) (0 :: taken.map (· + 1)) where
  once := by
    simp [rest.once.map Nat.succ_injective]
  free := by
    simp only [mem_cons, mem_map]
    rintro i (rfl | ⟨j, member, rfl⟩)
    · rfl
    · exact rest.free j member
  ids := by
    simp only [map_cons, List.map_map]
    exact congrArg₂ cons rfl rest.ids
  sameSlots := by
    simp [rest.sameSlots]
  holders := by
    intro i
    cases i with
    | zero => simp
    | succ i => simp [rest.holders i]

theorem skipFirst
    (rest : SlotsTaken jobId slots ids assigned after taken)
    (slot id : Int) :
    SlotsTaken jobId (slot :: slots) (id :: ids) assigned (slot :: after)
      (taken.map (· + 1)) where
  once := rest.once.map Nat.succ_injective
  free := by
    simp only [mem_map]
    rintro i ⟨j, member, rfl⟩
    exact rest.free j member
  ids := by
    simp only [List.map_map]
    exact rest.ids
  sameSlots := by
    simp [rest.sameSlots]
  holders := by
    intro i
    cases i with
    | zero => simp
    | succ i => simp [rest.holders i]

end SlotsTaken

/-- The free slots of one socket are taken from the front. -/
theorem assignSlots_spec
    (jobId : JobId)
    (wanted : Nat)
    {slots ids : List Int}
    (sameLength : ids.length = slots.length) :
    ∃ assigned after taken,
      assignSlots jobId wanted slots ids = some (assigned, after) ∧
        SlotsTaken jobId slots ids assigned after taken ∧
        taken.length = min wanted (getAvailableSlots slots) := by
  induction slots generalizing wanted ids with
  | nil =>
      refine ⟨[], [], [], ?_, .none [] ids, by simp [getAvailableSlots]⟩
      cases wanted with
      | zero => rfl
      | succ wanted => rfl
  | cons slot slots hypothesis =>
      cases wanted with
      | zero => exact ⟨[], slot :: slots, [], rfl, .none _ ids, by simp⟩
      | succ wanted =>
          cases ids with
          | nil => exact absurd sameLength (by simp)
          | cons id ids =>
              have restLength : ids.length = slots.length :=
                Nat.succ.inj sameLength
              by_cases free : slot = -1
              · subst slot
                rcases hypothesis wanted restLength with
                  ⟨assigned, after, taken, found, slotsTaken, length⟩
                refine ⟨_, _, _, ?_, slotsTaken.takeFirst id, ?_⟩
                · simp [assignSlots, found]
                · simp [getAvailableSlots, length]
              · rcases hypothesis (wanted + 1) restLength with
                  ⟨assigned, after, taken, found, slotsTaken, length⟩
                refine ⟨_, _, _, ?_, slotsTaken.skipFirst slot id, ?_⟩
                · simp [assignSlots, free, found]
                · simp [getAvailableSlots, free, length]

namespace BindToMap

variable
  {binder other : BindToMap}
  {jobId : JobId}
  {socket wanted : Nat}
  {slots ids assigned after : List Int}
  {taken : List Nat}

theorem Granted.none (binder : BindToMap) (jobId : JobId) :
    Granted binder jobId 0 [] [] binder where
  different := nodup_nil
  enough := rfl
  free := by simp
  ids := rfl
  sameIds := rfl
  sameLengths := rfl
  holders := by simp

/-- Slots of one socket are slots of the binder. -/
theorem Granted.ofSocket
    (slotsAt : binder.bindedCPUs[socket]? = some slots)
    (idsAt : binder.idList[socket]? = some ids)
    (slotsTaken : SlotsTaken jobId slots ids assigned after taken) :
    Granted binder jobId taken.length assigned (taken.map (socket, ·))
      { binder with bindedCPUs := binder.bindedCPUs.set socket after } where
  different :=
    slotsTaken.once.map fun _ _ same => (Prod.mk.injEq .. ▸ same).2
  enough := length_map _
  free := by
    simp only [mem_map]
    rintro slot ⟨i, member, rfl⟩
    simpa [holder, slotsAt] using slotsTaken.free i member
  ids := by
    rw [← slotsTaken.ids, List.map_map]
    apply List.map_congr_left
    intro i _
    simp [idAt, idsAt]
  sameIds := rfl
  sameLengths := by
    rcases List.getElem?_eq_some_iff.mp slotsAt with ⟨inside, socketEq⟩
    apply List.ext_getElem?
    intro i
    by_cases same : socket = i
    · subst i
      simp [inside, socketEq, slotsTaken.sameSlots]
    · simp [same]
  holders := by
    rintro ⟨other, i⟩
    rcases List.getElem?_eq_some_iff.mp slotsAt with ⟨inside, socketEq⟩
    by_cases same : other = socket
    · subst other
      simp [holder, inside, socketEq, slotsTaken.holders]
    · simp [holder, Ne.symm same]

/-- Slots of other sockets are taken afterwards. -/
theorem Granted.append
    {bound final : BindToMap}
    {first second : Nat}
    {assigned more : List Int}
    {slots later : List Slot}
    (granted : Granted binder jobId first assigned slots bound)
    (next : Granted bound jobId second more later final)
    (apart : ∀ slot ∈ slots, slot ∉ later) :
    Granted binder jobId (first + second) (assigned ++ more) (slots ++ later)
      final where
  different :=
    granted.different.append next.different fun slot => apart slot
  enough := by
    rw [length_append, granted.enough, next.enough]
  free := by
    intro slot member
    rcases mem_append.mp member with early | late
    · exact granted.free slot early
    · have notEarly : slot ∉ slots := fun early => apart slot early late
      have free := next.free slot late
      rwa [granted.holders, if_neg notEarly] at free
  ids := by
    rw [map_append, map_append, granted.ids, ← next.ids]
    congr 1
    unfold idAt
    rw [granted.sameIds]
  sameIds := next.sameIds.trans granted.sameIds
  sameLengths := next.sameLengths.trans granted.sameLengths
  holders := by
    intro slot
    rw [next.holders, granted.holders]
    by_cases early : slot ∈ slots
    · simp [early, apart slot early]
    · simp [early]

/-- The two lists agree on the slots of a socket. -/
theorem SameLengths.idsOf
    (sameLengths : binder.SameLengths)
    (slotsAt : binder.bindedCPUs[socket]? = some slots) :
    ∃ ids, binder.idList[socket]? = some ids ∧ ids.length = slots.length := by
  have atSocket := congrArg (·[socket]?) sameLengths
  simpa [slotsAt] using atSocket

variable {numCUs : Nat}

theorem SameLengths.of_granted
    {bound : BindToMap}
    {slots : List Slot}
    (sameLengths : binder.SameLengths)
    (granted : Granted binder jobId numCUs assigned slots bound) :
    bound.SameLengths := by
  rw [SameLengths, granted.sameIds, granted.sameLengths]
  exact sameLengths

variable (jobId)

/-- The sockets that the search has found are enough for the assignment. -/
theorem assignSockets_spec
    {used : List Nat}
    (sameLengths : binder.SameLengths)
    (once : used.Nodup)
    (inside : ∀ socket ∈ used, socket < binder.bindedCPUs.length)
    (enough :
      wanted ≤ (used.map fun socket =>
        getAvailableSlots (binder.bindedCPUs.getD socket [])).sum) :
    ∃ assigned slots bound,
      assignSockets jobId used wanted binder = .returned bound assigned ∧
        Granted binder jobId wanted assigned slots bound ∧
        ∀ slot ∈ slots, slot.1 ∈ used := by
  induction used generalizing binder wanted with
  | nil =>
      have nothing : wanted = 0 := Nat.le_zero.mp (by simpa using enough)
      subst nothing
      exact ⟨[], [], binder, rfl, .none binder jobId, by simp⟩
  | cons socket rest hypothesis =>
      rcases nodup_cons.mp once with ⟨notInRest, restOnce⟩
      have socketInside := inside socket mem_cons_self
      have slotsAt := List.getElem?_eq_getElem socketInside
      rcases sameLengths.idsOf slotsAt with ⟨ids, idsAt, sameLength⟩
      rcases assignSlots_spec jobId wanted sameLength with
        ⟨assigned, after, taken, found, slotsTaken, taken_length⟩
      have granted := Granted.ofSocket slotsAt idsAt slotsTaken
      have assigned_length : assigned.length = taken.length := by
        simpa using congrArg length slotsTaken.ids.symm
      rw [assignSockets, slotsAt, idsAt]
      simp only [found]
      by_cases done : assigned.length = wanted
      · rw [if_pos done]
        rw [← assigned_length, done] at granted
        refine ⟨assigned, _, _, rfl, granted, ?_⟩
        simp
      · rw [if_neg done]
        have available :
            assigned.length =
              getAvailableSlots (binder.bindedCPUs.getD socket []) := by
          rw [getD_eq_getElem?_getD, slotsAt, Option.getD_some]
          omega
        have restEnough :
            wanted - assigned.length ≤
              (rest.map fun other =>
                getAvailableSlots
                  ((binder.bindedCPUs.set socket after).getD other [])).sum := by
          rw [map_cons, sum_cons, ← available] at enough
          refine (Nat.sub_le_iff_le_add'.mpr enough).trans_eq ?_
          congr 1
          apply List.map_congr_left
          intro other member
          have apart : socket ≠ other := fun same => notInRest (same ▸ member)
          simp [apart]
        rcases hypothesis (sameLengths.of_granted granted) restOnce
            (fun other member => by
              simpa using inside other (mem_cons_of_mem socket member))
            restEnough with
          ⟨more, later, final, foundRest, grantedRest, restSockets⟩
        have apart : ∀ slot ∈ taken.map (socket, ·), slot ∉ later := by
          simp only [mem_map]
          rintro slot ⟨i, _, rfl⟩ late
          exact notInRest (restSockets _ late)
        have total := granted.append grantedRest apart
        have wholeAmount : taken.length + (wanted - assigned.length) = wanted := by
          omega
        rw [wholeAmount] at total
        rw [foundRest]
        refine ⟨_, _, final, rfl, total, ?_⟩
        intro slot member
        rcases mem_append.mp member with early | late
        · rcases mem_map.mp early with ⟨i, _, rfl⟩
          exact mem_cons_self
        · exact mem_cons_of_mem socket (restSockets slot late)

/-!
## The order of the sockets
-/

theorem rearranged_updateSocketPriority (binder : BindToMap) :
    binder.Rearranged binder.updateSocketPriority :=
  ⟨binder.socketOrder, perm_insertionSort _ _, rfl, rfl⟩

theorem Rearranged.length
    (rearranged : binder.Rearranged other) :
    other.bindedCPUs.length = binder.bindedCPUs.length := by
  rcases rearranged with ⟨order, perm, _, slots⟩
  rw [slots, length_map, perm.length_eq, length_range]

theorem SameLengths.of_rearranged
    (sameLengths : binder.SameLengths)
    (rearranged : binder.Rearranged other) :
    other.SameLengths := by
  rcases rearranged with ⟨order, _, ids, slots⟩
  rw [SameLengths, ids, slots, List.map_map, List.map_map]
  apply List.map_congr_left
  intro socket _
  cases slotsAt : binder.bindedCPUs[socket]? with
  | none =>
      have idsAt : binder.idList[socket]? = none := by
        have lengths := congrArg length sameLengths
        rw [length_map, length_map] at lengths
        rw [List.getElem?_eq_none_iff] at slotsAt ⊢
        exact lengths.trans_le slotsAt
      simp [idsAt, slotsAt]
  | some slots =>
      rcases sameLengths.idsOf slotsAt with ⟨ids, idsAt, sameLength⟩
      simp [idsAt, slotsAt, sameLength]

/-!
## Each operation
-/

/-- Both lists have the same shape, and there is a socket. -/
structure Consistent (binder : BindToMap) : Prop where
  sameLengths : binder.SameLengths
  someSocket : binder.bindedCPUs ≠ []

theorem Consistent.of_rearranged
    (consistent : binder.Consistent)
    (rearranged : binder.Rearranged other) :
    other.Consistent where
  sameLengths := consistent.sameLengths.of_rearranged rearranged
  someSocket := by
    rw [← length_pos_iff, rearranged.length, length_pos_iff]
    exact consistent.someSocket

theorem freeInFront_le (binder : BindToMap) :
    freeInFront binder.bindedCPUs ≤ binder.freeSlots := by
  have split :=
    congrArg (fun sockets => (sockets.map getAvailableSlots).sum)
      (@takeWhile_append_dropWhile _ (getAvailableSlots · > 0)
        binder.bindedCPUs)
  simp only [map_append, sum_append] at split
  exact (Nat.le_add_right _ _).trans_eq split

theorem map_getAvailableSlots_range'
    {count : Nat}
    (inside : count ≤ sockets.length) :
    (range' 0 count).map
        (fun socket => getAvailableSlots (sockets.getD socket [])) =
      (sockets.take count).map getAvailableSlots := by
  apply List.ext_getElem
  · simpa using inside
  · intro i _ inTake
    simp only [length_map, length_take] at inTake
    simp [Nat.lt_of_lt_of_le inTake (Nat.min_le_right _ _)]

/-- A request that the sockets in front can serve is granted. -/
theorem bind_granted
    (consistent : binder.Consistent)
    (enough : numCUs ≤ freeInFront binder.bindedCPUs) :
    ∃ assigned slots bound,
      binder.bindComputingUnits jobId numCUs =
          .returned bound.updateSocketPriority (.bound assigned) ∧
        Granted binder jobId numCUs assigned slots bound := by
  rcases search_found consistent.someSocket enough 0 with
    ⟨count, inside, found, sum⟩
  have once : (range' 0 count).reverse.Nodup :=
    nodup_reverse.mpr nodup_range'
  have usedInside :
      ∀ socket ∈ (range' 0 count).reverse,
        socket < binder.bindedCPUs.length := by
    intro socket member
    rw [mem_reverse, mem_range'_1, Nat.zero_add] at member
    exact member.2.trans_le inside
  have usedEnough :
      numCUs ≤ ((range' 0 count).reverse.map fun socket =>
        getAvailableSlots (binder.bindedCPUs.getD socket [])).sum := by
    rw [map_reverse, sum_reverse,
      map_getAvailableSlots_range' inside]
    exact sum
  rcases assignSockets_spec jobId consistent.sameLengths once usedInside
      usedEnough with
    ⟨assigned, slots, bound, assignment, granted, _⟩
  have assigned_length : assigned.length = numCUs := by
    rw [← granted.enough]
    simpa using congrArg length granted.ids.symm
  refine ⟨assigned, slots, bound, ?_, granted⟩
  rw [bindComputingUnits, found]
  simp [assignment, assigned_length]

/-- How the other requests end. -/
theorem bind_notGranted
    (tooFew : freeInFront binder.bindedCPUs < numCUs) :
    binder.bindComputingUnits jobId numCUs =
      if ∃ socket ∈ binder.bindedCPUs, getAvailableSlots socket = 0 then
        .returned binder .unsufficientAvailableComputingUnits
      else
        .raised binder .indexOutOfBounds := by
  rw [bindComputingUnits, search_notFound tooFew]
  by_cases full : ∃ socket ∈ binder.bindedCPUs, getAvailableSlots socket = 0
  · rw [if_pos full, if_pos full]
  · rw [if_neg full, if_neg full]

variable (consistent : binder.Consistent)

include consistent

/-- A bind does what is promised where the search stays within the sockets. -/
theorem bindMeets_iff
    (jobId : JobId)
    (numCUs : Nat) :
    binder.BindMeets jobId numCUs ↔ binder.SearchServes numCUs := by
  constructor
  · intro meets
    by_contra notServed
    rw [SearchServes, not_or, not_and] at notServed
    rcases notServed with ⟨tooFew, notRefused⟩
    have outcome := bind_notGranted jobId (Nat.lt_of_not_le tooFew)
    by_cases enough : numCUs ≤ binder.freeSlots
    · rcases meets.served enough with ⟨after, assigned, slots, bound, served, _⟩
      rw [served] at outcome
      split at outcome
      · exact absurd outcome (by simp)
      · exact absurd outcome (by simp)
    · have notEnough := Nat.lt_of_not_le enough
      rw [meets.refused notEnough, if_neg (notRefused notEnough)] at outcome
      exact absurd outcome (by simp)
  · rintro (enough | ⟨tooFew, full⟩)
    · constructor
      · intro _
        rcases bind_granted jobId consistent enough with
          ⟨assigned, slots, bound, outcome, granted⟩
        exact ⟨_, assigned, slots, bound, outcome, granted,
          rearranged_updateSocketPriority bound⟩
      · intro notEnough
        exact absurd (enough.trans (freeInFront_le binder))
          (Nat.not_le_of_lt notEnough)
    · constructor
      · intro enough
        exact absurd enough (Nat.not_le_of_lt tooFew)
      · intro _
        rw [bind_notGranted jobId ((freeInFront_le binder).trans_lt tooFew),
          if_pos full]

omit consistent in
theorem releaseMeets (binder : BindToMap) (jobId : JobId) :
    binder.ReleaseMeets jobId := by
  let released : BindToMap :=
    { binder with
      bindedCPUs :=
        binder.bindedCPUs.map fun vector =>
          vector.map fun (slot : Int) => if slot = jobId then -1 else slot }
  refine ⟨released, rfl, ?_, ?_, rearranged_updateSocketPriority released⟩
  · simp [released, List.map_map, Function.comp_def]
  · rintro ⟨socket, i⟩
    simp only [released, holder, List.getElem?_map]
    cases binder.bindedCPUs[socket]? with
    | none => simp
    | some slots =>
        cases slotEq : slots[i]? with
        | none => simp [slotEq]
        | some slot =>
            by_cases held : slot = jobId
            · simp [slotEq, held]
            · simp [slotEq, held]

theorem Consistent.bind
    (jobId : JobId)
    (numCUs : Nat) :
    (binder.bindComputingUnits jobId numCUs).state.Consistent := by
  by_cases enough : numCUs ≤ freeInFront binder.bindedCPUs
  · rcases bind_granted jobId consistent enough with
      ⟨assigned, slots, bound, outcome, granted⟩
    have boundConsistent : bound.Consistent := by
      refine ⟨consistent.sameLengths.of_granted granted, ?_⟩
      intro none
      have lengths := granted.sameLengths
      rw [none, map_nil, eq_comm, map_eq_nil_iff] at lengths
      exact consistent.someSocket lengths
    rw [outcome]
    exact boundConsistent.of_rearranged (rearranged_updateSocketPriority bound)
  · rw [bind_notGranted jobId (Nat.lt_of_not_le enough)]
    split
    · exact consistent
    · exact consistent

theorem Consistent.release
    (jobId : JobId) :
    (binder.releaseComputingUnits jobId).Consistent := by
  rcases releaseMeets binder jobId with
    ⟨released, ids, lengths, _, rearranged⟩
  have releasedConsistent : released.Consistent := by
    constructor
    · rw [SameLengths, ids, lengths]
      exact consistent.sameLengths
    · intro none
      rw [none, map_nil, eq_comm, map_eq_nil_iff] at lengths
      exact consistent.someSocket lengths
  exact releasedConsistent.of_rearranged rearranged

end BindToMap

/-!
## Runs
-/

inductive BindingAction where
  | bind (jobId : JobId) (numCUs : Nat)
  | release (jobId : JobId)

/-- Each operation holds the lock of the lists from its start to its end. -/
def bindingSystem (start : BindToMap) :
    TransitionSystem BindToMap BindingAction where
  start := start
  Enabled _ _ := True
  next binder action :=
    match action with
    | .bind jobId numCUs => (binder.bindComputingUnits jobId numCUs).state
    | .release jobId => binder.releaseComputingUnits jobId

theorem replicateRow_length
    {i missing left : Nat}
    {sockets more : List (List Int)}
    (row : replicateRow i missing sockets = some (more, left)) :
    more.length = sockets.length := by
  induction sockets generalizing missing more with
  | nil =>
      cases missing with
      | zero | succ _ =>
          cases row
          rfl
  | cons ids rest hypothesis =>
      cases missing with
      | zero =>
          cases row
          rfl
      | succ missing =>
          simp only [replicateRow, Option.bind_eq_bind,
            Option.bind_eq_some_iff] at row
          rcases row with ⟨id, _, ⟨restMore, restLeft⟩, restRow, same⟩
          cases same
          rw [length_cons, length_cons, hypothesis restRow]

theorem replicateRows_length
    {rows i missing : Nat}
    {sockets idList : List (List Int)}
    (replicated : replicateRows rows i missing sockets = some idList) :
    idList.length = sockets.length := by
  induction rows generalizing i missing sockets with
  | zero =>
      cases replicated
      rfl
  | succ rows hypothesis =>
      rw [replicateRows] at replicated
      split at replicated
      · simp only [Option.bind_eq_bind, Option.bind_eq_some_iff] at replicated
        rcases replicated with ⟨⟨more, left⟩, row, rest⟩
        exact (hypothesis rest).trans (replicateRow_length row)
      · cases replicated
        rfl

theorem BindToMap.Consistent.of_construct
    {numThreads : Int}
    {socketString : String}
    {start : BindToMap}
    (constructed : construct numThreads socketString = some start) :
    start.Consistent := by
  simp only [construct, auxiliarConstructor, Option.bind_eq_bind,
    Option.bind_eq_some_iff] at constructed
  rcases constructed with ⟨sockets, _, constructed⟩
  split at constructed
  · exact absurd constructed (by simp)
  · rename_i someSocket
    simp only [Option.pure_def, Option.bind_eq_some_iff] at constructed
    rcases constructed with ⟨idList, replicated, same⟩
    cases same
    constructor
    · simp [BindToMap.SameLengths, List.map_map, Function.comp_def]
    · intro none
      have idListEmpty : idList = [] := by simpa using none
      have lengths := replicateRows_length replicated
      rw [idListEmpty, length_nil, eq_comm,
        length_eq_zero_iff] at lengths
      exact someSocket lengths

/-- The sockets of a machine map stay in order through every run. -/
theorem consistent_of_run
    {start binder : BindToMap}
    {actions : List BindingAction}
    (consistent : start.Consistent)
    (run : Run (bindingSystem start) anyStep actions binder) :
    binder.Consistent := by
  apply run.invariant consistent
  intro state action stateConsistent _ _
  cases action with
  | bind jobId numCUs => exact stateConsistent.bind jobId numCUs
  | release jobId => exact stateConsistent.release jobId

/-- The promise of the binder in one of its states. -/
structure BindToMap.Exclusive (binder : BindToMap) : Prop where
  sameLengths : binder.SameLengths
  releases : ∀ jobId, binder.ReleaseMeets jobId

end DistributedRdf.Nio
