import DistributedRdf.AssociationLists
import DistributedRdf.ListChunks
import DistributedRdf.TreeReduction

namespace DistributedRdf.PyCompss

open AssociationLists List Reduce Chunks

open AssociationLists (Dict)

/-!
# Clusters of points

Points are put to the nearest center fragment by fragment.  They are numbered
through all fragments: the number of the first point of a fragment is added when
a point is put to a center, and subtracted when the points of a center are
summed up.  The sums of the fragments are reduced to one dictionary.
-/

namespace KMeans

abbrev Point (dim : Nat) := Fin dim → ℚ

inductive Fault where
  /-- `min` of an empty list -/
  | valueError
  | indexError
  | reduce (fault : Reduce.Fault)
  deriving DecidableEq

/-- `l[index]`, where a negative index counts from the end -/
def item {Item : Type} (l : List Item) : Int → Except Fault Item
  | .ofNat position =>
      match l[position]? with
      | some item => .ok item
      | none => .error .indexError
  | .negSucc fromEnd =>
      match l.reverse[fromEnd]? with
      | some item => .ok item
      | none => .error .indexError

section

variable {dim : Nat}

/-- The square of `np.linalg.norm(x - center)`, with the same nearest centers -/
def squaredNorm (x center : Point dim) : ℚ :=
  ∑ i, (x i - center i) ^ 2

/-- The position of the first of the nearest centers -/
def bestmukey
    (mu : List (Point dim))
    (x : Point dim) : Except Fault Nat :=
  match mu.zipIdx.argmin fun t => squaredNorm x t.1 with
  | some (_, key) => .ok key
  | none => .error .valueError

def addPoint
    (mu : List (Point dim))
    (ind : Nat)
    (dic : Dict Nat (List Nat))
    (x : Point dim × Nat) : Except Fault (Dict Nat (List Nat)) := do
  let key ← bestmukey mu x.1
  match dic.lookup key with
  | none => return dic.insert key [x.2 + ind]
  | some numbers => return dic.insert key (numbers ++ [x.2 + ind])

def clusterPointsPartial
    (XP : List (Point dim))
    (mu : List (Point dim))
    (ind : Nat) : Except Fault (Dict Nat (List Nat)) :=
  XP.zipIdx.foldlM (addPoint mu ind) ∅

/-- The number of points of each center, and their sum -/
def partialSum
    (XP : List (Point dim))
    (clusters : Dict Nat (List Nat))
    (ind : Nat) : Except Fault (Dict Nat (Nat × Point dim)) := do
  let p ← clusters.entries.mapM fun cluster => do
    let l ← cluster.2.mapM fun j : Nat => item XP ((j : Int) - ind)
    return (cluster.1, l)
  return p.foldl (fun dic (i, l) => dic.insert i (l.length, l.sum)) ∅

/-- The loop over the keys of `b` -/
def reduceCentersTask
    (a b : Dict Nat (Nat × Point dim)) : Dict Nat (Nat × Point dim) :=
  addAll
    (fun kept added => (kept.1 + added.1, kept.2 + added.2)) a b

variable
  (data : List (Point dim))
  (numFrag : Nat)

/-- `data` as `kmeans` cuts it -/
def fragmented : List (List (Point dim)) :=
  chunks data (data.length / numFrag) false

/-- The `size` that the offsets are multiples of, computed from the fragments -/
def fragmentSize : Nat :=
  (fragmented data numFrag).length / numFrag

/-- The task of a fragment in the first list of an iteration -/
def clusterFragment
    (data : List (List (Point dim)))
    (mu : List (Point dim))
    (size f : Nat) : Except Fault (Dict Nat (List Nat)) := do
  clusterPointsPartial (← item data f) mu (f * size)

/-- The task of a fragment in the second list of an iteration -/
def sumFragment
    (data : List (List (Point dim)))
    (clusters : List (Dict Nat (List Nat)))
    (size f : Nat) : Except Fault (Dict Nat (Nat × Point dim)) := do
  partialSum (← item data f) (← item clusters f) (f * size)

/-- One round of the loop of `kmeans`, up to the reduced dictionary -/
def iteration
    (rounds : Nat)
    (data : List (Point dim))
    (numFrag : Nat)
    (mu : List (Point dim)) :
    Except Fault (Option (Dict Nat (Nat × Point dim))) := do
  let fragments := fragmented data numFrag
  let size := fragmentSize data numFrag
  let clusters ← (range numFrag).mapM (clusterFragment fragments mu size)
  let partialResult ←
    (range numFrag).mapM (sumFragment fragments clusters size)
  match mergeReduce reduceCentersTask rounds partialResult with
  | .ok (reduced, _) => return reduced
  | .error fault => throw (.reduce fault)

/-- How many points there are and their sum, for a center that has any -/
def summary (points : List (Point dim)) : Option (Nat × Point dim) :=
  if points = [] then none else some (points.length, points.sum)

/-- The points whose nearest center is the one at a position -/
def pointsOf
    (mu : List (Point dim))
    (key : Nat)
    (points : List (Point dim)) : List (Point dim) :=
  points.filter fun x => bestmukey mu x = .ok key

/-- Every point is counted once, with the center that is nearest to it. -/
structure CountsOnce
    (mu : List (Point dim))
    (reduced : Dict Nat (Nat × Point dim)) : Prop where
  counts : (reduced.entries.map fun entry => entry.2.1).sum = data.length
  sums : ∀ key, reduced.lookup key = summary (pointsOf mu key data)
  nearest :
    ∀ x ∈ data, ∃ key center,
      bestmukey mu x = .ok key ∧ mu[key]? = some center ∧
        ∀ other ∈ mu, squaredNorm x center ≤ squaredNorm x other
  /-- The numbers of a fragment stand for positions in it. -/
  indices :
    ∀ f < numFrag, ∀ fragment ∈ (fragmented data numFrag)[f]?,
      ∀ clusters,
        clusterPointsPartial fragment mu (f * fragmentSize data numFrag) =
            .ok clusters →
          ∀ cluster ∈ clusters.entries, ∀ j ∈ cluster.2,
            f * fragmentSize data numFrag ≤ j ∧
              j - f * fragmentSize data numFrag < fragment.length

/-!
## One fragment
-/

theorem mapM_eq_map
    {Input : Type u}
    {Output : Type v}
    {step : Input → Except Fault Output}
    {answer : Input → Output}
    {inputs : List Input}
    (answers : ∀ input ∈ inputs, step input = .ok (answer input)) :
    inputs.mapM step = .ok (inputs.map answer) := by
  induction inputs with
  | nil => rfl
  | cons input rest hypothesis =>
      rw [mapM_cons, answers input mem_cons_self,
        hypothesis fun other member =>
          answers other (mem_cons_of_mem input member)]
      rfl

/-- A key that `bestmukey` answers is the position of a nearest center. -/
theorem bestmukey_nearest
    {mu : List (Point dim)}
    {x : Point dim}
    {key : Nat}
    (best : bestmukey mu x = .ok key) :
    ∃ center, mu[key]? = some center ∧
      ∀ other ∈ mu, squaredNorm x center ≤ squaredNorm x other := by
  unfold bestmukey at best
  split at best
  case h_2 => exact absurd best (by simp)
  case h_1 center position least =>
    cases best
    refine ⟨center, ?_, ?_⟩
    · exact List.mem_zipIdx_iff_getElem?.mp (argmin_mem least)
    · intro other member
      obtain ⟨place, atPlace⟩ := List.getElem?_of_mem member
      have inTuples : (other, place) ∈ mu.zipIdx :=
        List.mem_zipIdx_iff_getElem?.mpr atPlace
      have ordered := le_of_mem_argmin
        (f := fun t : Point dim × Nat => squaredNorm x t.1) inTuples least
      exact ordered

theorem exists_bestmukey
    {mu : List (Point dim)}
    (nonempty : mu ≠ [])
    (x : Point dim) :
    ∃ key, bestmukey mu x = .ok key := by
  unfold bestmukey
  cases least : mu.zipIdx.argmin fun t => squaredNorm x t.1 with
  | none => simp [argmin_eq_none, nonempty] at least
  | some best => exact ⟨best.2, rfl⟩

variable
  {mu : List (Point dim)}
  {key : Point dim → Nat}

/-- The numbers of the points of a center -/
def numbersOf
    (key : Point dim → Nat)
    (center ind : Nat)
    (XP : List (Point dim)) : List Nat :=
  (XP.zipIdx.filter (key ·.1 = center)).map (·.2 + ind)

theorem clusterPointsPartial_spec
    (keys : ∀ x, bestmukey mu x = .ok (key x))
    (XP : List (Point dim))
    (ind : Nat) :
    ∃ clusters,
      clusterPointsPartial XP mu ind = .ok clusters ∧
        ∀ center,
          clusters.lookup center =
            listed (numbersOf key center ind XP) := by
  have loop (points : List (Point dim × Nat)) (dic : Dict Nat (List Nat)) :
      points.foldlM (addPoint mu ind) dic =
        .ok (points.foldl
          (fun dic x => insertWith (· ++ ·) dic (key x.1)
            [x.2 + ind]) dic) := by
    induction points generalizing dic with
    | nil => rfl
    | cons x rest hypothesis =>
        have added :
            addPoint mu ind dic x =
              .ok (insertWith (· ++ ·) dic (key x.1)
                [x.2 + ind]) := by
          rw [addPoint, keys, insertWith]
          cases found : dic.lookup (key x.1) with
          | none | some _ => simp [bind, Except.bind, found, pure, Except.pure]
        rw [foldlM_cons, added]
        exact hypothesis _
  refine ⟨_, loop XP.zipIdx ∅, fun center => ?_⟩
  rw [lookup_foldl_insertWith
    (fun x : Point dim × Nat => key x.1) (fun x : Point dim × Nat => x.2 + ind),
    AList.lookup_empty, Option.merge_none_left]
  rfl

variable {XP : List (Point dim)}

theorem lt_length_of_numbersOf
    {center ind j : Nat}
    (member : j ∈ numbersOf key center ind XP) :
    ind ≤ j ∧ j - ind < XP.length := by
  obtain ⟨x, isPoint, rfl⟩ := List.mem_map.mp member
  have atPosition :=
    List.mem_zipIdx_iff_getElem?.mp (List.mem_of_mem_filter isPoint)
  obtain ⟨inRange, -⟩ := List.getElem?_eq_some_iff.mp atPosition
  exact ⟨Nat.le_add_left ind x.2, by rwa [Nat.add_sub_cancel]⟩

/-- The numbers of a center lead back to its points. -/
theorem mapM_item_numbersOf
    (XP : List (Point dim))
    (center ind : Nat) :
    (numbersOf key center ind XP).mapM
        (fun j : Nat => item XP ((j : Int) - ind)) =
      .ok (XP.filter (key · = center)) := by
  have found (points : List (Point dim × Nat)) (within : points ⊆ XP.zipIdx) :
      (points.map (·.2 + ind)).mapM
          (fun j : Nat => item XP ((j : Int) - ind)) =
        .ok (points.map Prod.fst) := by
    induction points with
    | nil => rfl
    | cons x rest hypothesis =>
        obtain ⟨inXP, restWithin⟩ := cons_subset.mp within
        have atPosition := List.mem_zipIdx_iff_getElem?.mp inXP
        have position : ((x.2 + ind : Nat) : Int) - ind = .ofNat x.2 := by
          simp
        rw [map_cons, mapM_cons, position, item, atPosition,
          hypothesis restWithin]
        rfl
  rw [numbersOf, found _ (filter_subset_self _)]
  conv_rhs => rw [← zipIdx_map_fst 0 XP, filter_map]
  rfl

theorem numbersOf_eq_nil_iff
    {center ind : Nat} :
    numbersOf key center ind XP = [] ↔ XP.filter (key · = center) = [] := by
  have sameLength :
      (numbersOf key center ind XP).length =
        (XP.filter (key · = center)).length := by
    conv_rhs => rw [← zipIdx_map_fst 0 XP, filter_map]
    rw [numbersOf, length_map, length_map]
    rfl
  rw [← length_eq_zero_iff, sameLength, length_eq_zero_iff]

theorem partialSum_spec
    {clusters : Dict Nat (List Nat)}
    {ind : Nat}
    (clustered :
      ∀ center,
        clusters.lookup center =
          listed (numbersOf key center ind XP)) :
    ∃ sums,
      partialSum XP clusters ind = .ok sums ∧
        ∀ center,
          sums.lookup center = summary (XP.filter (key · = center)) := by
  have points :
      ∀ cluster ∈ clusters.entries,
        (do
          let l ← cluster.2.mapM fun j : Nat => item XP ((j : Int) - ind)
          return (cluster.1, l) : Except Fault (Nat × List (Point dim))) =
        .ok (cluster.1, XP.filter (key · = cluster.1)) := by
    rintro ⟨center, numbers⟩ member
    have held := AList.mem_lookup_iff.mpr member
    rw [Option.mem_def, clustered, listed] at held
    split at held
    case isTrue => exact absurd held (by simp)
    case isFalse =>
      cases held
      simp only [mapM_item_numbersOf]
      rfl
  refine ⟨_, by rw [partialSum, mapM_eq_map points]; rfl, fun center => ?_⟩
  rw [foldl_map]
  have overKeys := lookup_foldl_insert
    (fun center => ((XP.filter (key · = center)).length,
      (XP.filter (key · = center)).sum))
    clusters.keys ∅ center
  rw [AList.keys, keys, foldl_map] at overKeys
  refine overKeys.trans ?_
  have isKey :
      center ∈ clusters.entries.map Sigma.fst ↔
        XP.filter (key · = center) ≠ [] := by
    refine AList.lookup_isSome.symm.trans ?_
    rw [clustered, Ne, ← @numbersOf_eq_nil_iff dim key XP center ind,
      listed]
    split
    case isTrue empty => simp [empty]
    case isFalse nonempty => simp [nonempty]
  rw [AList.lookup_empty, summary]
  by_cases empty : XP.filter (key · = center) = []
  · rw [if_neg (isKey.not.mpr (not_not.mpr empty)), if_pos empty]
  · rw [if_pos (isKey.mpr empty), if_neg empty]

/-!
## The reduced dictionary
-/

/-- The dictionaries are looked at as functions of the centers. -/
def merged
    (left right : Nat → Option (Nat × Point dim))
    (center : Nat) : Option (Nat × Point dim) :=
  Option.merge (fun kept added => (kept.1 + added.1, kept.2 + added.2))
    (left center) (right center)

instance : Std.Associative (@merged dim) where
  assoc first second third := by
    funext center
    rw [merged, merged, merged, merged]
    cases first center <;> cases second center <;> cases third center <;>
      simp [add_assoc]

theorem merged_summary
    (front back : List (Point dim)) :
    Option.merge
        (fun kept added : Nat × Point dim =>
          (kept.1 + added.1, kept.2 + added.2))
        (summary front) (summary back) =
      summary (front ++ back) := by
  cases front with
  | nil => simp [summary]
  | cons first frontRest =>
      cases back with
      | nil => simp [summary]
      | cons second backRest =>
          simp [summary, add_assoc]
          omega

theorem summary_perm
    {points others : List (Point dim)}
    (perm : points.Perm others) :
    summary points = summary others := by
  rw [summary, summary, perm.length_eq, perm.sum_eq]
  by_cases empty : points = []
  · rw [if_pos empty, if_pos (perm_nil.mp (empty ▸ perm).symm)]
  · have otherNonempty : others ≠ [] := by
      rintro rfl
      exact empty (perm_nil.mp perm)
    rw [if_neg empty, if_neg otherNonempty]

theorem simpleReduce_merged
    (selected : Nat → Point dim → Bool)
    {fragments : List (List (Point dim))}
    (nonempty : fragments ≠ []) :
    simpleReduce merged
        (fragments.map fun fragment center =>
          summary (fragment.filter (selected center))) =
      some fun center =>
        summary (fragments.flatten.filter (selected center)) := by
  match fragments, nonempty with
  | first :: rest, _ =>
      have loop (rest : List (List (Point dim))) (front : List (Point dim)) :
          (rest.map fun fragment center =>
              summary (fragment.filter (selected center))).foldl merged
              (fun center => summary (front.filter (selected center))) =
            fun center =>
              summary ((front ++ rest.flatten).filter (selected center)) := by
        induction rest generalizing front with
        | nil => simp
        | cons second rest hypothesis =>
            have joined :
                merged
                    (fun center => summary (front.filter (selected center)))
                    (fun center => summary (second.filter (selected center))) =
                  fun center =>
                    summary ((front ++ second).filter (selected center)) := by
              funext center
              rw [merged, merged_summary, filter_append]
            rw [map_cons, foldl_cons, joined, hypothesis,
              flatten_cons, append_assoc]
      rw [map_cons, simpleReduce, loop, flatten_cons]

/-- The points of a fragment that is in full -/
def fragmentAt
    (n f : Nat) : List (Point dim) :=
  slice data (f * n) (f * n + n)

theorem fragmented_at
    {data : List (Point dim)}
    {numFrag f : Nat}
    (positive : 0 < data.length / numFrag)
    (earlier : f < numFrag) :
    (fragmented data numFrag)[f]? =
      some (fragmentAt data (data.length / numFrag) f) := by
  have inData :
      (f + 1) * (data.length / numFrag) ≤ data.length :=
    (Nat.mul_le_mul_right _ earlier).trans (Nat.mul_div_le data.length numFrag)
  have inRange :
      f < (data.length - 0 + data.length / numFrag - 1) /
        (data.length / numFrag) := by
    rw [Nat.lt_div_iff_mul_lt positive]
    rw [Nat.succ_mul] at inData
    omega
  rw [fragmented, chunks, if_pos (by simp), fragmentsFrom,
    xrange, List.getElem?_map, List.getElem?_range' inRange, fragmentAt]
  simp [Nat.mul_comm]

theorem flatten_fragmentAt
    (numFrag n : Nat) :
    ((range numFrag).map (fragmentAt data n)).flatten =
      data.take (numFrag * n) := by
  have positions :
      (range numFrag).map (fragmentAt data n) =
        (range' 0 numFrag n).map fun i => slice data i (i + n) := by
    refine ext_getElem (by simp) fun f _ _ => ?_
    simp [fragmentAt, Nat.mul_comm]
  rw [positions, flatten_slices, slice, drop_zero,
    Nat.zero_add]

section

variable
  {data : List (Point dim)}
  {numFrag : Nat}

/-- The partial results are those of the fragments that are in full. -/
theorem iteration_eq
    (keys : ∀ x, bestmukey mu x = .ok (key x))
    (positive : 0 < data.length / numFrag) :
    ∃ partialResult : List (Dict Nat (Nat × Point dim)),
      partialResult.length = numFrag ∧
        partialResult.map (fun sums center => sums.lookup center) =
          ((range numFrag).map
            (fragmentAt data (data.length / numFrag))).map
              (fun fragment center =>
                summary (fragment.filter (key · = center))) ∧
        ∀ rounds,
          iteration rounds data numFrag mu =
            match mergeReduce reduceCentersTask rounds partialResult with
            | .ok (reduced, _) => .ok reduced
            | .error fault => .error (.reduce fault) := by
  choose clusters clustered lookups using clusterPointsPartial_spec keys
  choose sums summed sumsOf using fun XP ind => partialSum_spec (lookups XP ind)
  let fragment := fragmentAt data (data.length / numFrag)
  have fragments :
      ∀ f ∈ range numFrag,
        item (fragmented data numFrag) (f : Nat) = .ok (fragment f) := by
    intro f inRange
    have atPosition := fragmented_at positive (mem_range.mp inRange)
    change item _ (.ofNat f) = _
    rw [item, atPosition]
  let offset (f : Nat) := f * fragmentSize data numFrag
  refine ⟨(range numFrag).map fun f => sums (fragment f) (offset f),
    by simp, ?_, fun rounds => ?_⟩
  · rw [map_map, map_map]
    refine map_congr_left fun f _ => ?_
    funext center
    exact sumsOf (fragment f) (offset f) center
  · have isClustered :
        ∀ f ∈ range numFrag,
          clusterFragment (fragmented data numFrag) mu
              (fragmentSize data numFrag) f =
            .ok (clusters (fragment f) (offset f)) := by
      intro f inRange
      rw [clusterFragment, fragments f inRange]
      exact clustered (fragment f) (offset f)
    have isSummed :
        ∀ f ∈ range numFrag,
          sumFragment (fragmented data numFrag)
              ((range numFrag).map fun f =>
                clusters (fragment f) (offset f))
              (fragmentSize data numFrag) f =
            .ok (sums (fragment f) (offset f)) := by
      intro f inRange
      have atPosition :
          item ((range numFrag).map fun f =>
            clusters (fragment f) (offset f)) (f : Nat) =
          .ok (clusters (fragment f) (offset f)) := by
        change item _ (.ofNat f) = _
        rw [item, List.getElem?_map,
          List.getElem?_range (mem_range.mp inRange)]
        rfl
      rw [sumFragment, fragments f inRange, atPosition]
      exact summed (fragment f) (offset f)
    rw [iteration, mapM_eq_map isClustered]
    simp only [bind, Except.bind]
    rw [mapM_eq_map isSummed]
    rfl

/-- The fragments that are in full are reduced in some order. -/
theorem exists_reduced
    {partialResult : List (Dict Nat (Nat × Point dim))}
    {fragments : List (List (Point dim))}
    (nonempty : fragments ≠ [])
    (views :
      partialResult.map (fun sums center => sums.lookup center) =
        fragments.map fun fragment center =>
          summary (fragment.filter (key · = center))) :
    ∃ reduced after,
      mergeReduce reduceCentersTask partialResult.length partialResult =
          .ok (some reduced, after) ∧
        ∀ center,
          reduced.lookup center =
            summary (fragments.flatten.filter (key · = center)) := by
  let view (sums : Dict Nat (Nat × Point dim)) (center : Nat) :=
    sums.lookup center
  have respects (left right : Dict Nat (Nat × Point dim)) :
      view (reduceCentersTask left right) =
        merged (view left) (view right) := by
    funext center
    exact lookup_addAll _ left right center
  have mapped : partialResult.map view ≠ [] := by
    rw [views]
    simpa using nonempty
  obtain ⟨after, outcome, -⟩ :=
    @mergeReduce_rotated _ merged _ _ _ mapped (length_map view).le
  rw [mergeReduce_map respects, views, ← map_rotate,
    simpleReduce_merged (fun center x => decide (key x = center))
      (by simpa using nonempty)] at outcome
  cases returned :
      mergeReduce reduceCentersTask partialResult.length
        partialResult with
  | error fault =>
      rw [returned] at outcome
      exact absurd outcome (by simp [Except.map])
  | ok result =>
      obtain ⟨value, locals⟩ := result
      rw [returned] at outcome
      obtain ⟨isValue, -⟩ := Prod.mk.inj (Except.ok.inj outcome)
      obtain ⟨reduced, rfl, viewed⟩ := Option.map_eq_some_iff.mp isValue
      refine ⟨reduced, locals, rfl, fun center => ?_⟩
      refine (congrFun viewed center).trans (summary_perm ?_)
      exact (rotate_perm fragments _).flatten.filter _

/-- The reduced dictionary is that of the points of the fragments in full. -/
theorem iteration_spec
    (keys : ∀ x, bestmukey mu x = .ok (key x))
    (fragments : 1 ≤ numFrag)
    (few : numFrag ≤ data.length) :
    (∃ rounds reduced,
        iteration rounds data numFrag mu = .ok (some reduced)) ∧
      ∀ rounds reduced,
        iteration rounds data numFrag mu = .ok (some reduced) →
          ∀ center,
            reduced.lookup center =
              summary ((data.take (numFrag * (data.length / numFrag))).filter
                (key · = center)) := by
  obtain ⟨partialResult, -, views, eq⟩ :=
    iteration_eq keys (Nat.div_pos few fragments)
  obtain ⟨reduced, after, returned, lookups⟩ :=
    exists_reduced (by simpa using Nat.ne_of_gt fragments) views
  rw [flatten_fragmentAt] at lookups
  refine ⟨⟨_, reduced, by rw [eq, returned]⟩, fun rounds other outcome => ?_⟩
  rw [eq] at outcome
  cases isOther :
      mergeReduce reduceCentersTask rounds partialResult with
  | error fault =>
      rw [isOther] at outcome
      exact absurd outcome (by simp)
  | ok result =>
      rw [isOther] at outcome
      have longer := mergeReduce_mono isOther
        (le_max_left rounds partialResult.length)
      rw [mergeReduce_mono returned (le_max_right rounds _)] at longer
      cases longer
      cases outcome
      exact lookups

variable {reduced : Dict Nat (Nat × Point dim)}

theorem sum_counts
    {points : List (Point dim)}
    (lookups :
      ∀ center,
        reduced.lookup center = summary (points.filter (key · = center))) :
    (reduced.entries.map fun entry => entry.2.1).sum = points.length := by
  have counted :
      reduced.entries.map (fun entry => entry.2.1) =
        reduced.keys.map fun center => points.countP (key · = center) := by
    rw [AList.keys, keys, map_map]
    refine map_congr_left ?_
    rintro ⟨center, count, total⟩ member
    have held := AList.mem_lookup_iff.mpr member
    rw [Option.mem_def, lookups, summary] at held
    split at held
    case isTrue => exact absurd held (by simp)
    case isFalse =>
      cases held
      exact countP_eq_length_filter.symm
  rw [counted]
  refine sum_countP reduced.keys_nodup key fun x member => ?_
  have listed : x ∈ points.filter (key · = key x) := by simpa using member
  rw [← AList.mem_keys, ← AList.lookup_isSome, lookups, summary,
    if_neg (ne_nil_of_mem listed)]
  rfl

/-- Without centers the first point has no nearest one. -/
theorem iteration_of_no_centers
    (fragments : 1 ≤ numFrag)
    (few : numFrag ≤ data.length)
    (rounds : Nat) :
    iteration rounds data numFrag [] = .error .valueError := by
  have positive := Nat.div_pos few fragments
  have first :=
    fragmented_at positive (Nat.lt_of_lt_of_le Nat.zero_lt_one fragments)
  have isFirst :
      clusterFragment (fragmented data numFrag) [] (fragmentSize data numFrag)
          0 =
        .error .valueError := by
    have isItem :
        item (fragmented data numFrag) (0 : Nat) =
          .ok (fragmentAt data (data.length / numFrag) 0) := by
      change item _ (.ofNat 0) = _
      rw [item, first]
    obtain ⟨x, rest, rfl⟩ := exists_cons_of_length_pos
      (Nat.lt_of_lt_of_le fragments few)
    obtain ⟨more, size⟩ := Nat.exists_eq_add_of_le' positive
    rw [clusterFragment, isItem, size, fragmentAt, slice]
    simp [clusterPointsPartial, addPoint, bestmukey, bind, Except.bind]
  obtain ⟨others, rfl⟩ := Nat.exists_eq_add_of_le' fragments
  rw [iteration, range_succ_eq_map, mapM_cons, isFirst]
  rfl

theorem counts_eq
    (centers : mu ≠ [])
    (fragments : 1 ≤ numFrag)
    (few : numFrag ≤ data.length)
    {rounds : Nat}
    (returned : iteration rounds data numFrag mu = .ok (some reduced)) :
    (reduced.entries.map fun entry => entry.2.1).sum =
      numFrag * (data.length / numFrag) := by
  choose key keys using exists_bestmukey centers
  have lookups := (iteration_spec keys fragments few).2 rounds reduced returned
  rw [sum_counts lookups, length_take_of_le (Nat.mul_div_le _ _)]

/--
Every point counts once exactly if there are centers and the fragments that are
iterated are all the fragments.
-/
theorem countsOnce_iff
    (fragments : 1 ≤ numFrag)
    (few : numFrag ≤ data.length) :
    (∃ rounds reduced,
        iteration rounds data numFrag mu = .ok (some reduced) ∧
          CountsOnce data numFrag mu reduced) ↔
      mu ≠ [] ∧ numFrag ∣ data.length := by
  constructor
  · rintro ⟨rounds, reduced, returned, countsOnce⟩
    have centers : mu ≠ [] := by
      rintro rfl
      rw [iteration_of_no_centers fragments few] at returned
      exact absurd returned (by simp)
    refine ⟨centers, data.length / numFrag, ?_⟩
    rw [← counts_eq centers fragments few returned, countsOnce.counts]
  · rintro ⟨centers, divides⟩
    choose key keys using exists_bestmukey centers
    obtain ⟨⟨rounds, reduced, returned⟩, lookups⟩ :=
      iteration_spec keys fragments few
    have sums := lookups rounds reduced returned
    rw [Nat.mul_div_cancel' divides, take_length] at sums
    refine ⟨rounds, reduced, returned, ?_, ?_, ?_, ?_⟩
    · exact sum_counts sums
    · intro center
      rw [sums, pointsOf]
      simp only [keys, Except.ok.injEq]
    · intro x _
      obtain ⟨center, atKey, nearest⟩ := bestmukey_nearest (keys x)
      exact ⟨key x, center, keys x, atKey, nearest⟩
    · intro f _ fragment _ clusters clustered cluster isCluster j isNumber
      obtain ⟨same, isSame, numbers⟩ := clusterPointsPartial_spec keys fragment
        (f * fragmentSize data numFrag)
      rw [isSame] at clustered
      cases clustered
      have held := AList.mem_lookup_iff.mpr isCluster
      rw [Option.mem_def, numbers, listed] at held
      split at held
      case isTrue => exact absurd held (by simp)
      case isFalse =>
        rw [← Option.some.inj held] at isNumber
        exact lt_length_of_numbersOf isNumber

end

end

/-- The points of a line at the first whole numbers -/
def line (count : Nat) : List (Point 1) :=
  (range count).map fun place _ => place

theorem countsOnce_fourPoints :
    ∃ rounds reduced,
      iteration rounds (line 4) 2 (line 2) = .ok (some reduced) ∧
        CountsOnce (line 4) 2 (line 2) reduced :=
  (countsOnce_iff (by decide) (by decide)).mpr
    ⟨cons_ne_nil _ _, by decide⟩

/-- Two of the three fragments are iterated, the last point is not. -/
theorem not_countsOnce_fivePoints :
    ¬ ∃ rounds reduced,
      iteration rounds (line 5) 2 (line 2) = .ok (some reduced) ∧
        CountsOnce (line 5) 2 (line 2) reduced := by
  rintro ⟨rounds, reduced, returned, countsOnce⟩
  have counted := counts_eq (cons_ne_nil _ _) (by decide) (by decide)
    returned
  rw [countsOnce.counts] at counted
  exact absurd counted (by decide)

end KMeans

end DistributedRdf.PyCompss
