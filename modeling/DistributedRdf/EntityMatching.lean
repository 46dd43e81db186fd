import DistributedRdf.EditDistance
import DistributedRdf.EntityResolution

namespace DistributedRdf.Distribution

open Sparql EditDistance List

/-!
# Matching two resources

`replace` asks the disambiguation graph first and compares the names of the two
resources otherwise.  The names are compared by `levenshtein`, which keeps one
row of the edit-distance table and stores the first column in the last cell,
where index `-1` finds it.
-/

section Rows

variable {α : Type u} {seq1 seq2 : List α}

/--
The cell at `y - 1` is the edit distance to the prefix of length `y`, from the
empty prefix in the last cell up to `columns`.  Prefixes are reversed so that
their last item comes first.
-/
structure RowHolds
    (seq1 seq2 : List α)
    (x columns : Nat)
    (row : List Nat) : Prop where
  length : row.length = seq2.length + 1
  cells :
    ∀ y, y ≤ columns →
      IsEditDistance (seq1.take x).reverse (seq2.take y).reverse
        (rowAt row (y - 1))

variable {row : List Nat}

theorem rowAt_neg_one :
    rowAt row (-1) = row.getD (row.length - 1) 0 := by
  cases row with
  | nil => rfl
  | cons first rest => simp [rowAt]

theorem rowAt_natCast
    {y : Nat} :
    rowAt row y = row.getD y 0 := by
  simp [rowAt]

/-- Writing a column leaves the last cell and the other columns as they are. -/
theorem rowAt_set_pred
    {length y column value : Nat}
    (size : row.length = length + 1)
    (bound : y < length)
    (other : column ≠ y + 1) :
    rowAt (row.set y value) (column - 1) = rowAt row (column - 1) := by
  cases column with
  | zero =>
      have different : y ≠ length := by
        omega
      simp [rowAt_neg_one, size, different]
  | succ earlier =>
      have different : y ≠ earlier := by
        omega
      simp [rowAt_natCast, different]

theorem rowAt_set_natCast
    {length y value : Nat}
    (size : row.length = length + 1)
    (bound : y < length) :
    rowAt (row.set y value) y = value := by
  have inRow : y < row.length := by
    omega
  simp [rowAt_natCast, inRow]

theorem pred_succ (y : Nat) : ((y + 1 : Nat) : Int) - 1 = y := by
  simp

theorem reverse_take_succ
    {items : List α}
    {count : Nat}
    (bound : count < items.length) :
    (items.take (count + 1)).reverse =
      items[count] :: (items.take count).reverse := by
  rw [← take_concat_get' items count bound, reverse_append]
  rfl

/-- One column extends the part of the row that holds distances. -/
theorem levenshteinCell_holds
    [DecidableEq α]
    {x y : Nat}
    {oneago thisrow : List Nat}
    (inFirst : x < seq1.length)
    (inSecond : y < seq2.length)
    (above : RowHolds seq1 seq2 x seq2.length oneago)
    (left : RowHolds seq1 seq2 (x + 1) y thisrow) :
    RowHolds seq1 seq2 (x + 1) (y + 1)
      (levenshteinCell seq1 seq2 x oneago thisrow y) := by
  have deleted := above.cells (y + 1) inSecond
  have inserted := left.cells y le_rfl
  have aligned := above.cells y inSecond.le
  rw [pred_succ, reverse_take_succ inSecond] at deleted
  rw [reverse_take_succ inFirst] at inserted
  have written := IsEditDistance.cons deleted inserted aligned
  rw [← reverse_take_succ inFirst, ← reverse_take_succ inSecond] at written
  constructor
  · exact length_set.trans left.length
  · intro column reached
    by_cases newest : column = y + 1
    · subst newest
      unfold levenshteinCell
      rw [pred_succ, rowAt_set_natCast left.length inSecond]
      rw [getElem?_eq_getElem inFirst, getElem?_eq_getElem inSecond]
      simpa only [ne_eq, Option.some.injEq] using written
    · unfold levenshteinCell
      rw [rowAt_set_pred left.length inSecond newest]
      exact left.cells column (by omega)

/-- The inner loop completes the next row of the table. -/
theorem levenshteinRow_holds
    [DecidableEq α]
    {x : Nat}
    {oneago : List Nat}
    (inFirst : x < seq1.length)
    (above : RowHolds seq1 seq2 x seq2.length oneago) :
    RowHolds seq1 seq2 (x + 1) seq2.length
      (levenshteinRow seq1 seq2 oneago x) := by
  have columns
      (count : Nat)
      (bound : count ≤ seq2.length) :
      RowHolds seq1 seq2 (x + 1) count
        ((range count).foldl (levenshteinCell seq1 seq2 x oneago)
          (replicate seq2.length 0 ++ [x + 1])) := by
    induction count with
    | zero =>
        refine ⟨by simp, ?_⟩
        intro y reached
        obtain rfl : y = 0 := Nat.le_zero.mp reached
        have distance :=
          isEditDistance_nil_right (seq1.take (x + 1)).reverse
        simpa [rowAt_neg_one, Nat.min_eq_left (Nat.succ_le_of_lt inFirst)]
          using distance
    | succ column hypothesis =>
        rw [range_succ, foldl_append]
        exact levenshteinCell_holds inFirst bound above
          (hypothesis (Nat.le_of_succ_le bound))
  exact columns seq2.length le_rfl

/-- The row before the first: distances from the empty sequence. -/
theorem initialRow_holds (seq1 seq2 : List α) :
    RowHolds seq1 seq2 0 seq2.length
      (range' 1 seq2.length ++ [0]) := by
  refine ⟨by simp, ?_⟩
  intro y reached
  have distance := isEditDistance_nil_left (seq2.take y).reverse
  cases y with
  | zero => simpa [rowAt_neg_one] using distance
  | succ column =>
      have inRow : column < seq2.length := reached
      have cell :
          rowAt (range' 1 seq2.length ++ [0]) ((column + 1 : Nat) - 1) =
            column + 1 := by
        rw [pred_succ, rowAt_natCast]
        simp [getElem?_append, inRow, Nat.add_comm]
      rw [cell]
      simpa [Nat.min_eq_left reached] using distance

/-- `levenshtein` computes the edit distance, of empty sequences as well. -/
theorem levenshtein_isEditDistance
    [DecidableEq α]
    (seq1 seq2 : List α) :
    IsEditDistance seq1 seq2 (levenshtein seq1 seq2) := by
  have rows
      (count : Nat)
      (bound : count ≤ seq1.length) :
      RowHolds seq1 seq2 count seq2.length
        ((range count).foldl (levenshteinRow seq1 seq2)
          (range' 1 seq2.length ++ [0])) := by
    induction count with
    | zero => exact initialRow_holds seq1 seq2
    | succ x hypothesis =>
        rw [range_succ, foldl_append]
        exact levenshteinRow_holds bound
          (hypothesis (Nat.le_of_succ_le bound))
  have final := (rows seq1.length le_rfl).cells seq2.length le_rfl
  rwa [take_length, take_length, isEditDistance_reverse] at final

theorem levenshtein_comm
    [DecidableEq α]
    (seq1 seq2 : List α) :
    levenshtein seq1 seq2 = levenshtein seq2 seq1 :=
  (levenshtein_isEditDistance seq1 seq2).unique
    (levenshtein_isEditDistance seq2 seq1).symm

example : levenshtein "".toList "abc".toList = 3 := by decide

end Rows

/-!
## The names of two resources
-/

variable (lower : Text → Text)

/-- What `replace` tests when the disambiguation graph does not decide. -/
def namesMatch (s1 s2 : Resource) : Bool :=
  let seq1 := lower (getCountryName s1)
  let seq2 := lower (getCountryName s2)
  contains seq1 seq2 || contains seq2 seq1 ||
    decide (levenshtein seq1 seq2 < 4)

theorem namesMatch_comm
    (s1 s2 : Resource) :
    namesMatch lower s1 s2 = namesMatch lower s2 s1 := by
  simp only [namesMatch, levenshtein_comm (lower (getCountryName s2)),
    Bool.or_comm (contains (lower (getCountryName s2)) _)]

theorem replace_eq
    (similarity : Similarity)
    (s1 s2 : Resource) :
    replace similarity s1 s2 =
      if similarity.predicatesAre s1 s2 "owl:sameAs".toList ||
          similarity.predicatesAre s2 s1 "owl:sameAs".toList then
        true
      else if similarity.predicatesAre s1 s2 "owl:differentFrom".toList ||
          similarity.predicatesAre s2 s1 "owl:differentFrom".toList then
        false
      else
        namesMatch similarity.lower s1 s2 := by
  simp only [replace, namesMatch]
  congr 2
  split
  · simp_all
  · split <;> simp_all

/--
Matching does not depend on the order of the two resources, and the distance
it rests on is the edit distance.
-/
theorem matching_symmetric
    [DecidableEq α] :
    (∀ (similarity : Similarity) (s1 s2 : Resource),
      replace similarity s1 s2 = replace similarity s2 s1) ∧
    ∀ seq1 seq2 : List α,
      IsEditDistance seq1 seq2 (levenshtein seq1 seq2) ∧
        levenshtein seq1 seq2 = levenshtein seq2 seq1 := by
  constructor
  · intro similarity s1 s2
    rw [replace_eq, replace_eq, namesMatch_comm,
      Bool.or_comm (similarity.predicatesAre s1 s2 "owl:sameAs".toList),
      Bool.or_comm (similarity.predicatesAre s1 s2 "owl:differentFrom".toList)]
  · intro seq1 seq2
    exact ⟨levenshtein_isEditDistance seq1 seq2, levenshtein_comm seq1 seq2⟩

/-!
## The disambiguation graph
-/

/-- What `==` compares in `replace`: a text, or an iterator over texts. -/
inductive PyObject where
  | str (text : Text)
  | generator (yields : List Text)
  deriving DecidableEq

/-- `==`, which compares a generator by identity and so with no text. -/
def PyObject.equals : PyObject → PyObject → Bool
  | .str first, .str second => decide (first = second)
  | _, _ => false

variable (disambiguations : Graph)

/-- `disambiguations.predicates(subject, object)` -/
def predicates
    (subject object : Resource) : PyObject :=
  .generator ((disambiguations.filter fun triple =>
    triple.subject = subject ∧ triple.object = .resource object).map
      Triple.predicate)

/-- What `replace` sees of a disambiguation graph. -/
def disambiguation : Similarity where
  lower := lower
  predicatesAre := fun s1 s2 name =>
    (predicates disambiguations s1 s2).equals (.str name)

/-- The graph relates the two resources, in either direction. -/
def Relates
    (name : Text)
    (s1 s2 : Resource) : Prop :=
  ⟨s1, name, .resource s2⟩ ∈ disambiguations ∨
    ⟨s2, name, .resource s1⟩ ∈ disambiguations

/-- `owl:sameAs` first, then `owl:differentFrom`, and only then the names. -/
structure Decides
    (s1 s2 : Resource) : Prop where
  same :
    Relates disambiguations "owl:sameAs".toList s1 s2 →
      replace (disambiguation lower disambiguations) s1 s2 = true
  different :
    Relates disambiguations "owl:differentFrom".toList s1 s2 →
    ¬ Relates disambiguations "owl:sameAs".toList s1 s2 →
      replace (disambiguation lower disambiguations) s1 s2 = false
  otherwise :
    ¬ Relates disambiguations "owl:sameAs".toList s1 s2 →
    ¬ Relates disambiguations "owl:differentFrom".toList s1 s2 →
      replace (disambiguation lower disambiguations) s1 s2 =
        namesMatch lower s1 s2

/-- The names say of their own accord what the graph says. -/
def NamesAgree
    (s1 s2 : Resource) : Prop :=
  (Relates disambiguations "owl:sameAs".toList s1 s2 →
    namesMatch lower s1 s2 = true) ∧
  (Relates disambiguations "owl:differentFrom".toList s1 s2 →
    ¬ Relates disambiguations "owl:sameAs".toList s1 s2 →
      namesMatch lower s1 s2 = false)

/-- An iterator is never equal to a predicate's name, so the names decide. -/
theorem replace_disambiguation
    (s1 s2 : Resource) :
    replace (disambiguation lower disambiguations) s1 s2 =
      namesMatch lower s1 s2 := by
  rw [replace_eq]
  rfl

/-- The disambiguation graph decides exactly where the names agree with it. -/
theorem decides_iff_namesAgree
    (lower : Text → Text)
    (disambiguations : Graph)
    (s1 s2 : Resource) :
    Decides lower disambiguations s1 s2 ↔
      NamesAgree lower disambiguations s1 s2 := by
  constructor
  · intro decides
    rw [NamesAgree, ← replace_disambiguation lower disambiguations]
    exact ⟨decides.same, decides.different⟩
  · rintro ⟨same, different⟩
    rw [← replace_disambiguation lower disambiguations] at same different
    exact ⟨same, different, fun _ _ => replace_disambiguation _ _ _ _⟩

/-- Two names too far apart stay apart, whatever the graph says. -/
theorem not_decides_netherlands :
    ¬ ∀ (lower : Text → Text) (disambiguations : Graph) (s1 s2 : Resource),
      Decides lower disambiguations s1 s2 := by
  intro decides
  have related := (decides id
    [⟨.iri "http://a.org/holland".toList, "owl:sameAs".toList,
      .resource (.iri "http://b.org/netherlands".toList)⟩]
    (.iri "http://a.org/holland".toList)
    (.iri "http://b.org/netherlands".toList)).same (.inl (by simp))
  exact absurd related (by decide +kernel)

end DistributedRdf.Distribution
