import DistributedRdf.SegmentQueue

namespace DistributedRdf.PyCompss

open SegmentQueue List

/-!
# Reductions of lists

`simpleReduce` goes through the list once.  `mergeReduce` keeps a queue of
positions: the items of the first two are combined into the first one, which
goes to the end of the queue.
-/

namespace Reduce

inductive Fault where
  | indexError
  /-- The loop goes on after the given number of rounds. -/
  | unfinished
  deriving DecidableEq

/-- The variables of `mergeReduce` -/
structure Locals (Item : Type u) where
  data : List Item
  q : List Nat
  dataNew : List Item
  deriving DecidableEq

/-- The same variables with other items -/
def Locals.map
    {Item : Type u}
    {View : Type v}
    (view : Item → View)
    (locals : Locals Item) : Locals View where
  data := locals.data.map view
  q := locals.q
  dataNew := locals.dataNew.map view

section

variable
  {Item : Type u}
  (function : Item → Item → Item)

/-- The first two positions have been taken out of the queue. -/
def combine
    (locals : Locals Item)
    (x y : Nat)
    (q : List Nat) : Except Fault (Locals Item) :=
  match locals.dataNew[x]?, locals.dataNew[y]? with
  | some left, some right =>
      .ok { locals with
        dataNew := locals.dataNew.set x (function left right)
        q := q ++ [x] }
  | _, _ => .error .indexError

/-- The loop; an empty queue leaves the function without a value. -/
def mergeLoop :
    Nat → Locals Item → Except Fault (Option Item × Locals Item)
  | 0, _ => .error .unfinished
  | rounds + 1, locals =>
      match locals.q with
      | [] => .ok (none, locals)
      | [x] =>
          match locals.dataNew[x]? with
          | some item => .ok (some item, { locals with q := [] })
          | none => .error .indexError
      | x :: y :: q => do
          let combined ← combine function locals x y q
          mergeLoop rounds combined

/-- The value and the variables at the end; `data[:]` is a copy. -/
def mergeReduce
    (rounds : Nat)
    (data : List Item) : Except Fault (Option Item × Locals Item) :=
  mergeLoop function rounds
    { data, q := range data.length, dataNew := data }

/-- `reduce`, which has no value for an empty list -/
def simpleReduce : List Item → Option Item
  | [] => none
  | first :: rest => some (rest.foldl function first)

variable (data : List Item)

/-- The loop ends with the value of `simpleReduce`, and `data` is as it was. -/
def ReducesInOrder : Prop :=
  ∃ rounds locals,
    mergeReduce function rounds data =
        .ok (simpleReduce function data, locals) ∧
      locals.data = data

/--
The items that come behind the others in the end may as well be combined in
front of them.  No items do if their number is a power of two.
-/
def MovedCommute : Prop :=
  ∀ front ∈ simpleReduce function (data.take (moved data.length)),
    ∀ back ∈ simpleReduce function (data.drop (moved data.length)),
      function back front = function front back

instance [DecidableEq Item] (data : List Item) :
    Decidable (MovedCommute function data) :=
  inferInstanceAs (Decidable (∀ front ∈ simpleReduce function _,
    ∀ back ∈ simpleReduce function _, function back front =
      function front back))

end

/-!
## What the items of the queue stand for
-/

section

variable
  {Item : Type u}
  {function : Item → Item → Item}

/-- A position holds what the items of a segment combine to. -/
def Holds
    (function : Item → Item → Item)
    (dataNew : List Item)
    (position : Nat)
    (segment : List Item) : Prop :=
  ∃ item, dataNew[position]? = some item ∧
    simpleReduce function segment = some item

/-- The positions of the queue differ and hold the segments. -/
structure Stands
    (function : Item → Item → Item)
    (locals : Locals Item)
    (segments : List (List Item)) : Prop where
  distinct : locals.q.Nodup
  holds :
    List.Forall₂ (Holds function locals.dataNew) locals.q segments

theorem simpleReduce_append
    [Std.Associative function]
    {front back : List Item}
    {left right : Item}
    (isFront : simpleReduce function front = some left)
    (isBack : simpleReduce function back = some right) :
    simpleReduce function (front ++ back) = some (function left right) := by
  cases front with
  | nil => exact absurd isFront (by simp [simpleReduce])
  | cons first frontRest =>
      cases back with
      | nil => exact absurd isBack (by simp [simpleReduce])
      | cons second backRest =>
          cases isFront
          cases isBack
          rw [cons_append, simpleReduce, foldl_append,
            foldl_cons, foldl_assoc]

/-- At first every position holds its own item. -/
theorem Stands.initial (data : List Item) :
    Stands function { data, q := range data.length, dataNew := data }
      (data.map fun item => [item]) where
  distinct := nodup_range
  holds := by
    rw [forall₂_iff_get]
    refine ⟨by simp, fun position inRange inSegments => ?_⟩
    have inData : position < data.length := by simpa using inRange
    refine ⟨data[position], ?_, ?_⟩
    · simp [inData]
    · simp [simpleReduce]

variable {dataNew : List Item}

theorem Holds.set_of_ne
    {position changed : Nat}
    {segment : List Item}
    (holds : Holds function dataNew position segment)
    (different : position ≠ changed)
    (item : Item) :
    Holds function (dataNew.set changed item) position segment := by
  obtain ⟨held, isHeld, value⟩ := holds
  refine ⟨held, ?_, value⟩
  rw [List.getElem?_set_ne different.symm]
  exact isHeld

variable
  {q : List Nat}
  {segments : List (List Item)}

theorem holds_set_of_not_mem
    {changed : Nat}
    (holds : List.Forall₂ (Holds function dataNew) q segments)
    (notInQueue : changed ∉ q)
    (item : Item) :
    List.Forall₂ (Holds function (dataNew.set changed item)) q segments := by
  have others : ∀ position ∈ q, position ≠ changed := by
    rintro position inQueue rfl
    exact notInQueue inQueue
  refine List.Forall₂.imp ?_ ((forall₂_and_left _ _).mpr ⟨others, holds⟩)
  rintro position segment ⟨different, held⟩
  exact held.set_of_ne different item

variable {locals : Locals Item}

/-- A round joins the segments of the first two positions. -/
theorem Stands.combine
    [Std.Associative function]
    {x y : Nat}
    {first second : List Item}
    {rest : List (List Item)}
    (stands : Stands function locals (first :: second :: rest))
    (queue : locals.q = x :: y :: q) :
    ∃ after,
      Reduce.combine function locals x y q = .ok after ∧
        after.data = locals.data ∧
        Stands function after (joinFirst (first :: second :: rest)) := by
  obtain ⟨distinct, holds⟩ := stands
  rw [queue] at distinct holds
  obtain ⟨⟨left, atX, isLeft⟩, ⟨right, atY, isRight⟩, others⟩ :
      Holds function locals.dataNew x first ∧
        Holds function locals.dataNew y second ∧
        List.Forall₂ (Holds function locals.dataNew) q rest := by
    simpa only [forall₂_cons] using holds
  obtain ⟨notInRest, distinctRest⟩ := List.nodup_cons.mp distinct
  have xNotInQueue : x ∉ q :=
    fun inQueue => notInRest (mem_cons_of_mem y inQueue)
  refine ⟨{ locals with
    dataNew := locals.dataNew.set x (function left right)
    q := q ++ [x] }, by rw [Reduce.combine, atX, atY], rfl, ?_, ?_⟩
  · -- The position goes from the front of the queue to its end.
    refine List.Nodup.append (List.nodup_cons.mp distinctRest).2
      (List.nodup_singleton x) ?_
    exact List.disjoint_singleton.mpr xNotInQueue
  · refine List.rel_append ?_ (.cons ?_ .nil)
    · exact holds_set_of_not_mem others xNotInQueue _
    · obtain ⟨inRange, -⟩ := List.getElem?_eq_some_iff.mp atX
      exact ⟨_, List.getElem?_set_self inRange,
        simpleReduce_append isLeft isRight⟩

variable {rounds : Nat}

/-- The loop ends with what the segments combine to, joined in its order. -/
theorem mergeLoop_spec
    [Std.Associative function]
    (stands : Stands function locals segments)
    (nonempty : segments ≠ [])
    (enough : segments.length ≤ rounds) :
    ∃ after,
      mergeLoop function rounds locals =
          .ok (simpleReduce function (joinedAll segments), after) ∧
        after.data = locals.data := by
  induction rounds generalizing locals segments with
  | zero =>
      exact absurd (length_eq_zero_iff.mp (Nat.le_zero.mp enough)) nonempty
  | succ rounds hypothesis =>
      have sameLength := stands.holds.length_eq
      match segments, nonempty with
      | [segment], _ =>
          obtain ⟨x, queue⟩ := length_eq_one_iff.mp sameLength
          have holds := stands.holds
          rw [queue] at holds
          obtain ⟨item, atX, isSegment⟩ :
              Holds function locals.dataNew x segment := by
            simpa using holds
          refine ⟨{ locals with q := [] }, ?_, rfl⟩
          rw [mergeLoop, queue, joinedAll_singleton, isSegment]
          simp only [atX]
      | first :: second :: rest, _ =>
          obtain ⟨x, y, q, queue⟩ :
              ∃ x y q, locals.q = x :: y :: q := by
            match locals.q, sameLength with
            | x :: y :: q, _ => exact ⟨x, y, q, rfl⟩
          obtain ⟨combined, isCombined, sameData, standsAfter⟩ :=
            stands.combine queue
          obtain ⟨after, outcome, unchanged⟩ :=
            hypothesis standsAfter (by simp [joinFirst])
              (by simpa [joinFirst] using enough)
          refine ⟨after, ?_, unchanged.trans sameData⟩
          rw [mergeLoop, queue]
          simp only [isCombined]
          rw [joinedAll_joinFirst] at outcome
          exact outcome

variable {data : List Item}

/-- The items are combined in an order that starts in the middle of the list. -/
theorem mergeReduce_rotated
    [Std.Associative function]
    (nonempty : data ≠ [])
    (enough : data.length ≤ rounds) :
    ∃ after,
      mergeReduce function rounds data =
          .ok (simpleReduce function (data.rotate (moved data.length)), after) ∧
        after.data = data := by
  have segments : data.map (fun item => [item]) ≠ [] := by simpa using nonempty
  have stands : Stands function _ (data.map fun item => [item]) :=
    Stands.initial data
  obtain ⟨after, outcome, unchanged⟩ :=
    mergeLoop_spec stands segments (by simpa using enough)
  refine ⟨after, ?_, unchanged⟩
  have flattened :
      joinedAll (data.map fun item => [item]) =
        data.rotate (moved data.length) := by
    rw [joinedAll, length_map, ← map_rotate, ← flatMap_def,
      flatMap_singleton']
  rw [← flattened]
  exact outcome

variable {outcome : Option Item × Locals Item}

/-- More rounds do not change what the loop returns. -/
theorem mergeLoop_succ
    (returned : mergeLoop function rounds locals = .ok outcome) :
    mergeLoop function (rounds + 1) locals = .ok outcome := by
  induction rounds generalizing locals with
  | zero => exact absurd returned (by simp [mergeLoop])
  | succ rounds hypothesis =>
      rw [mergeLoop] at returned ⊢
      match queue : locals.q with
      | [] | [x] => simpa only [queue] using returned
      | x :: y :: q =>
          simp only [queue] at returned ⊢
          cases isCombined : combine function locals x y q with
          | error fault =>
              rw [isCombined] at returned
              exact absurd returned (by simp [bind, Except.bind])
          | ok combined =>
              rw [isCombined] at returned
              exact hypothesis returned

theorem mergeReduce_mono
    {rounds more : Nat}
    (returned : mergeReduce function rounds data = .ok outcome)
    (atLeast : rounds ≤ more) :
    mergeReduce function more data = .ok outcome := by
  induction atLeast with
  | refl => exact returned
  | step _ hypothesis => exact mergeLoop_succ hypothesis

variable
  {View : Type v}
  {view : Item → View}
  {combineViews : View → View → View}

/-- The items may be looked at through a function that respects the reduction. -/
theorem mergeLoop_map
    (respects :
      ∀ left right,
        view (function left right) = combineViews (view left) (view right))
    (rounds : Nat)
    (locals : Locals Item) :
    mergeLoop combineViews rounds (locals.map view) =
      (mergeLoop function rounds locals).map fun (value, after) =>
        (value.map view, after.map view) := by
  induction rounds generalizing locals with
  | zero => rfl
  | succ rounds hypothesis =>
      rw [mergeLoop, mergeLoop]
      match queue : locals.q with
      | [] => simp [Locals.map, queue, Except.map]
      | [x] =>
          cases atX : locals.dataNew[x]? with
          | none | some _ => simp [Locals.map, queue, atX, Except.map]
      | x :: y :: q =>
          have viewed :
              combine combineViews (locals.map view) x y q =
                (combine function locals x y q).map (Locals.map view) := by
            unfold combine
            cases atX : locals.dataNew[x]? with
            | none => simp [Locals.map, atX, Except.map]
            | some left =>
                cases atY : locals.dataNew[y]? with
                | none => simp [Locals.map, atX, atY, Except.map]
                | some right =>
                    simp [Locals.map, atX, atY, Except.map, respects,
                      map_set]
          simp only [viewed]
          cases combine function locals x y q with
          | error fault => rfl
          | ok combined => exact hypothesis combined

theorem mergeReduce_map
    (respects :
      ∀ left right,
        view (function left right) = combineViews (view left) (view right))
    (rounds : Nat)
    (data : List Item) :
    mergeReduce combineViews rounds (data.map view) =
      (mergeReduce function rounds data).map fun (value, after) =>
        (value.map view, after.map view) := by
  rw [mergeReduce, length_map]
  exact mergeLoop_map respects rounds
    { data, q := range data.length, dataNew := data }

/-- What a rotation combines to, and when that is what the list combines to -/
theorem simpleReduce_rotate_iff
    [Std.Associative function]
    {places : Nat}
    (within : places ≤ data.length) :
    simpleReduce function (data.rotate places) = simpleReduce function data ↔
      ∀ front ∈ simpleReduce function (data.take places),
        ∀ back ∈ simpleReduce function (data.drop places),
          function back front = function front back := by
  rw [rotate_eq_drop_append_take within]
  cases isFront : simpleReduce function (data.take places) with
  | none =>
      have noFront : data.take places = [] := by
        match data.take places, isFront with
        | [], _ => rfl
      have whole := take_append_drop places data
      rw [noFront, nil_append] at whole
      simp [noFront, whole]
  | some front =>
      cases isBack : simpleReduce function (data.drop places) with
      | none =>
          have noBack : data.drop places = [] := by
            match data.drop places, isBack with
            | [], _ => rfl
          have whole := take_append_drop places data
          rw [noBack, append_nil] at whole
          simp [noBack, whole]
      | some back =>
          have forwards :
              simpleReduce function data = some (function front back) := by
            rw [← take_append_drop places data]
            exact simpleReduce_append isFront isBack
          rw [simpleReduce_append isBack isFront, forwards]
          simp

/-- The tree reduction gives the value of the list if its rotation has it. -/
theorem reducesInOrder_iff_rotated
    [Std.Associative function]
    (nonempty : data ≠ []) :
    ReducesInOrder function data ↔
      simpleReduce function (data.rotate (moved data.length)) =
        simpleReduce function data := by
  constructor
  · rintro ⟨rounds, locals, returned, -⟩
    obtain ⟨after, outcome, -⟩ :=
      @mergeReduce_rotated _ function (max rounds data.length) _ _ nonempty
        (le_max_right _ _)
    rw [mergeReduce_mono returned (le_max_left _ _)] at outcome
    have same := Except.ok.inj outcome
    exact (congrArg Prod.fst same).symm
  · intro sameValue
    obtain ⟨after, outcome, unchanged⟩ :=
      @mergeReduce_rotated _ function data.length _ _ nonempty (le_refl _)
    rw [sameValue] at outcome
    exact ⟨data.length, after, outcome, unchanged⟩

/--
The tree reduction gives the value of the reduction from left to right if and
only if the items that it moves behind the others may be combined there.
-/
theorem reducesInOrder_iff
    [Std.Associative function]
    {data : List Item}
    (nonempty : data ≠ []) :
    ReducesInOrder function data ↔ MovedCommute function data := by
  have length : data.length ≠ 0 := by simpa using nonempty
  have within : moved data.length ≤ data.length := (moved_lt length).le
  exact (reducesInOrder_iff_rotated nonempty).trans
    (simpleReduce_rotate_iff within)

/-- Four items are combined in their order. -/
theorem reducesInOrder_fourItems :
    ReducesInOrder (· ++ ·) ([[1], [2], [3], [4]] : List (List Nat)) :=
  (reducesInOrder_iff (by decide)).mpr (by decide)

/-- The third of three items comes to the front. -/
theorem not_reducesInOrder_threeItems :
    mergeReduce (· ++ ·) 3 ([[1], [2], [3]] : List (List Nat)) =
        .ok (some [3, 1, 2], ⟨[[1], [2], [3]], [], [[1, 2], [2], [3, 1, 2]]⟩) ∧
      ¬ ReducesInOrder (· ++ ·) ([[1], [2], [3]] : List (List Nat)) := by
  refine ⟨by decide, fun inOrder => ?_⟩
  have rotated := (reducesInOrder_iff_rotated (by decide)).mp inOrder
  exact absurd rotated (by decide)

end

end Reduce

end DistributedRdf.PyCompss
