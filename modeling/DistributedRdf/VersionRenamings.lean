import DistributedRdf.Words
import Mathlib.Algebra.Ring.Int.Defs
import Mathlib.Tactic.Common

namespace DistributedRdf.Engine

open Words List

/-!
# Renamings of versions

The file of a version is called after the identifiers of the version.  The
renaming of the version before is found by reading the numbers back.
-/

/-- Exceptions of methods on strings -/
inductive StringException where
  | stringIndexOutOfBounds
  | numberFormat
  deriving DecidableEq

variable (text : Text)

/-- `String.indexOf(int ch)` -/
def indexOf (char : Char) : Int :=
  if char ∈ text then text.idxOf char else -1

/-- `String.substring(int beginIndex, int endIndex)` -/
def substring
    (beginIndex endIndex : Int) : Except StringException Text :=
  if 0 ≤ beginIndex ∧ beginIndex ≤ endIndex ∧ endIndex ≤ text.length then
    .ok ((text.drop beginIndex.toNat).take (endIndex - beginIndex).toNat)
  else
    .error .stringIndexOutOfBounds

/-- `Integer.parseInt(String s)` -/
def parseInt (s : Text) : Except StringException Int32 :=
  match toInt s with
  | none => .error .numberFormat
  | some value =>
      if -2 ^ 31 ≤ value ∧ value < 2 ^ 31 then .ok (Int32.ofInt value)
      else .error .numberFormat

/-- `"d" + dataId + "v" + versionId + "_" + timeStamp + ".IT"` -/
def renamingOf (timeStamp : Text) (dataId versionId : Int32) : Text :=
  'd' :: decimal dataId.toInt ++ 'v' :: decimal versionId.toInt ++
    '_' :: timeStamp ++ ".IT".toList

/-- `null` for what starts with the letter of a version -/
def previousVersionRenaming
    (timeStamp versionName : Text) : Except StringException (Option Text) := do
  let dIdx := indexOf versionName 'd'
  let vIdx := indexOf versionName 'v'
  let tIndex := indexOf versionName '_'
  if vIdx = 1 then
    return none
  let dataId ← parseInt (← substring versionName (dIdx + 1) vIdx)
  let previousVersion ← parseInt (← substring versionName (vIdx + 1) tIndex)
  return some (renamingOf timeStamp dataId (previousVersion - 1))

/-! ## Reading a renaming -/

variable {char : Char}

theorem indexOf_append
    {before : Text}
    (isNew : char ∉ before)
    (after : Text) :
    indexOf (before ++ char :: after) char = before.length := by
  rw [indexOf, if_pos (mem_append_right _ mem_cons_self),
    idxOf_append_of_notMem isNew, idxOf_cons_self, Nat.add_zero]

theorem substring_append (before middle after : Text) :
    substring (before ++ middle ++ after) before.length
      (before.length + middle.length) = .ok middle := by
  have inside :
      (0 : Int) ≤ before.length ∧
        (before.length : Int) ≤ before.length + middle.length ∧
        (before.length + middle.length : Int) ≤
          (before ++ middle ++ after).length := by
    simp only [length_append]
    omega
  have length :
      ((before.length : Int) + middle.length - before.length).toNat =
        middle.length := by
    omega
  rw [substring, if_pos inside, length, Int.toNat_natCast, append_assoc,
    drop_left, take_left]

theorem parseInt_decimal (value : Int32) :
    parseInt (decimal value.toInt) = .ok value := by
  have inRange : -2 ^ 31 ≤ value.toInt ∧ value.toInt < 2 ^ 31 :=
    ⟨value.le_toInt, value.toInt_lt⟩
  rw [parseInt, toInt_decimal]
  simp only [inRange, and_self, if_true, Int32.ofInt_toInt]

theorem not_mem_decimal
    (notSign : char ≠ '-')
    (notDigit : char.isDigit = false)
    (value : Int) :
    char ∉ decimal value := by
  intro member
  rcases mem_decimal member with sign | digit
  · exact notSign sign
  · rw [notDigit] at digit
    cases digit

/-- The numbers of a renaming are read back, and the version is one less. -/
theorem previousVersionRenaming_renamingOf
    (timeStamp : Text)
    (dataId versionId : Int32) :
    previousVersionRenaming timeStamp (renamingOf timeStamp dataId versionId) =
      .ok (some (renamingOf timeStamp dataId (versionId - 1))) := by
  have ofData
      {char : Char}
      (notSign : char ≠ '-')
      (notDigit : char.isDigit = false) :
      char ∉ decimal dataId.toInt :=
    not_mem_decimal notSign notDigit _
  have ofVersion : '_' ∉ decimal versionId.toInt :=
    not_mem_decimal (by decide) rfl _
  have asVersion :
      renamingOf timeStamp dataId versionId =
        ('d' :: decimal dataId.toInt ++ ['v']) ++ decimal versionId.toInt ++
          '_' :: (timeStamp ++ ".IT".toList) := by
    simp [renamingOf]
  have asData :
      renamingOf timeStamp dataId versionId =
        ['d'] ++ decimal dataId.toInt ++
          'v' :: (decimal versionId.toInt ++
            '_' :: (timeStamp ++ ".IT".toList)) := by
    simp [renamingOf]
  have dIdx : indexOf (renamingOf timeStamp dataId versionId) 'd' = 0 := by
    rw [asData]
    exact indexOf_append not_mem_nil _
  have vIdx :
      indexOf (renamingOf timeStamp dataId versionId) 'v' =
        (['d'].length + (decimal dataId.toInt).length : Nat) := by
    rw [asData, indexOf_append (by simp [ofData]), length_append]
  have tIndex :
      indexOf (renamingOf timeStamp dataId versionId) '_' =
        (('d' :: decimal dataId.toInt ++ ['v']).length +
          (decimal versionId.toInt).length : Nat) := by
    rw [asVersion, indexOf_append (by simp [ofData, ofVersion]),
      length_append]
  have dataText :
      substring (renamingOf timeStamp dataId versionId) (0 + 1)
        (['d'].length + (decimal dataId.toInt).length : Nat) =
          .ok (decimal dataId.toInt) := by
    rw [asData]
    exact substring_append ['d'] _ _
  have versionText :
      substring (renamingOf timeStamp dataId versionId)
        ((['d'].length + (decimal dataId.toInt).length : Nat) + 1)
        (('d' :: decimal dataId.toInt ++ ['v']).length +
          (decimal versionId.toInt).length : Nat) =
            .ok (decimal versionId.toInt) := by
    have afterLetter :
        (((['d'].length + (decimal dataId.toInt).length : Nat) : Int) + 1) =
          ('d' :: decimal dataId.toInt ++ ['v']).length := by
      simp only [length_append, length_cons, length_nil]
      omega
    rw [afterLetter, asVersion]
    exact substring_append _ _ _
  have notFirst :
      ((['d'].length + (decimal dataId.toInt).length : Nat) : Int) ≠ 1 := by
    have isWord : IsWord (decimal dataId.toInt) := isWord_decimal
    have nonempty := length_pos_iff.mpr isWord.1
    simp only [length_singleton]
    omega
  simp only [previousVersionRenaming, dIdx, vIdx, tIndex, notFirst, if_false,
    dataText, versionText, parseInt_decimal, bind, Except.bind, pure,
    Except.pure]

/-!
## Looking for a version that is available
-/

section Search

variable (timeStamp : Text) (existsData : Text → Bool)

/-- What has been done of the loop: the renamings that `Comm` was asked for, and
how the loop ended, if it has. -/
structure Search where
  visited : List Text
  ended : Option (Except StringException (Option Text))
  deriving DecidableEq

def Search.after (versionName : Text) (search : Search) : Search :=
  { search with visited := versionName :: search.visited }

/-- "Look for the last available version", as far as it gets with so many calls
of `previousVersionRenaming` -/
def lookBack : Nat → Option Text → Search
  | _, none => ⟨[], some (.ok none)⟩
  | calls, some versionName =>
      if existsData versionName then
        ⟨[versionName], some (.ok (some versionName))⟩
      else
        match calls with
        | 0 => ⟨[versionName], none⟩
        | calls + 1 =>
            match previousVersionRenaming timeStamp versionName with
            | .error exception => ⟨[versionName], some (.error exception)⟩
            | .ok previous => (lookBack calls previous).after versionName

/-- The search from the last version of a datum ends after at most as many steps
as there are versions, and looks at nothing but versions of the datum. -/
structure EndsAmongVersions (dataId lastVersion : Int32) : Prop where
  ended :
    ∃ found,
      (lookBack timeStamp existsData lastVersion.toInt.toNat
        (some (renamingOf timeStamp dataId lastVersion))).ended =
          some (.ok found)
  visited :
    ∀ versionName ∈
      (lookBack timeStamp existsData lastVersion.toInt.toNat
        (some (renamingOf timeStamp dataId lastVersion))).visited,
      ∃ versionId, 1 ≤ versionId ∧ versionId ≤ lastVersion ∧
        versionName = renamingOf timeStamp dataId versionId

end Search

section Ends

variable
  {timeStamp : Text}
  {existsData : Text → Bool}
  {dataId : Int32}

theorem renamingOf_injective
    {versionId other : Int32}
    (same :
      renamingOf timeStamp dataId versionId =
        renamingOf timeStamp dataId other) :
    versionId = other := by
  simp only [renamingOf, cons_append, append_assoc] at same
  have afterData := append_cancel_left (cons.inj same).2
  have digits := append_cancel_right (cons.inj afterData).2
  have value : some versionId.toInt = some other.toInt := by
    rw [← toInt_decimal, digits, toInt_decimal]
  exact Int32.toInt_inj.mp (Option.some.inj value)

variable {versionId : Int32}

theorem toInt_pred
    (positive : 1 ≤ versionId) :
    (versionId - 1).toInt = versionId.toInt - 1 := by
  have atLeastOne : 1 ≤ versionId.toInt := Int32.le_iff_toInt_le.mp positive
  have bounded := versionId.toInt_lt
  rw [Int32.toInt_sub]
  exact Int.bmod_eq_of_le (by simp; omega) (by simp; omega)

theorem lookBack_known
    {versionName : Text}
    (known : existsData versionName = true)
    (calls : Nat) :
    lookBack timeStamp existsData calls (some versionName) =
      ⟨[versionName], some (.ok (some versionName))⟩ := by
  cases calls with
  | zero | succ _ => rw [lookBack, if_pos known]

/-- A version that is not available is followed by the one before it. -/
theorem lookBack_succ
    (missing : existsData (renamingOf timeStamp dataId versionId) = false)
    (calls : Nat) :
    lookBack timeStamp existsData (calls + 1)
        (some (renamingOf timeStamp dataId versionId)) =
      (lookBack timeStamp existsData calls
        (some (renamingOf timeStamp dataId (versionId - 1)))).after
          (renamingOf timeStamp dataId versionId) := by
  rw [lookBack, missing]
  simp only [Bool.false_eq_true, if_false, previousVersionRenaming_renamingOf]

/-- Without any data under the names of the datum, the loop does not end. -/
theorem lookBack_unending
    (missing :
      ∀ versionId,
        existsData (renamingOf timeStamp dataId versionId) = false)
    (calls : Nat)
    (versionId : Int32) :
    (lookBack timeStamp existsData calls
      (some (renamingOf timeStamp dataId versionId))).ended = none := by
  induction calls generalizing versionId with
  | zero =>
      rw [lookBack, missing versionId]
      rfl
  | succ calls hypothesis =>
      rw [lookBack_succ (missing versionId)]
      exact hypothesis (versionId - 1)

variable {calls : Nat}

/-- If no version is available, the search goes on to version 0. -/
theorem visits_zero
    (isLast : versionId.toInt = calls)
    (missing :
      ∀ earlier : Int32, 1 ≤ earlier → earlier ≤ versionId →
        existsData (renamingOf timeStamp dataId earlier) = false) :
    renamingOf timeStamp dataId 0 ∈
      (lookBack timeStamp existsData calls
        (some (renamingOf timeStamp dataId versionId))).visited := by
  induction calls generalizing versionId with
  | zero =>
      obtain rfl : versionId = 0 := Int32.toInt_inj.mp isLast
      rw [lookBack]
      split
      · exact mem_cons_self
      · exact mem_cons_self
  | succ calls hypothesis =>
      have positive : 1 ≤ versionId := by
        rw [Int32.le_iff_toInt_le, isLast, Int32.toInt_one]
        omega
      have before := toInt_pred positive
      rw [lookBack_succ (missing versionId positive (Int32.le_refl _))]
      refine mem_cons_of_mem _ (hypothesis ?_ ?_)
      · rw [before, isLast]
        simp
      · intro earlier atLeastOne upTo
        refine missing earlier atLeastOne (Int32.le_trans upTo ?_)
        rw [Int32.le_iff_toInt_le, before]
        omega

/-- The search ends at the last version that is available. -/
theorem ends_of_available
    {versionId available : Int32}
    (isLast : versionId.toInt = calls)
    (isVersion : 1 ≤ available)
    (upTo : available ≤ versionId)
    (known : existsData (renamingOf timeStamp dataId available) = true) :
    (∃ found,
      (lookBack timeStamp existsData calls
        (some (renamingOf timeStamp dataId versionId))).ended =
          some (.ok found)) ∧
      ∀ versionName ∈
        (lookBack timeStamp existsData calls
          (some (renamingOf timeStamp dataId versionId))).visited,
        ∃ earlier, 1 ≤ earlier ∧ earlier ≤ versionId ∧
          versionName = renamingOf timeStamp dataId earlier := by
  induction calls generalizing versionId with
  | zero =>
      have atLeastOne := Int32.le_iff_toInt_le.mp (Int32.le_trans isVersion upTo)
      rw [isLast] at atLeastOne
      exact absurd atLeastOne (by decide)
  | succ calls hypothesis =>
      have positive := Int32.le_trans isVersion upTo
      cases here : existsData (renamingOf timeStamp dataId versionId) with
      | true =>
          rw [lookBack_known here]
          refine ⟨⟨_, rfl⟩, fun versionName member => ?_⟩
          exact ⟨versionId, positive, Int32.le_refl _,
            mem_singleton.mp member⟩
      | false =>
          have isEarlier : available ≠ versionId := by
            rintro rfl
            rw [known] at here
            cases here
          have before := toInt_pred positive
          have upToBefore : available ≤ versionId - 1 := by
            have strictly := Int32.lt_iff_le_and_ne.mpr ⟨upTo, isEarlier⟩
            rw [Int32.lt_iff_toInt_lt] at strictly
            rw [Int32.le_iff_toInt_le, before]
            omega
          obtain ⟨ended, visited⟩ := hypothesis
            (by rw [before, isLast]; simp) upToBefore
          rw [lookBack_succ here]
          refine ⟨ended, fun versionName member => ?_⟩
          rcases mem_cons.mp member with rfl | later
          · exact ⟨versionId, positive, Int32.le_refl _, rfl⟩
          · obtain ⟨earlier, isEarlierVersion, atMost, same⟩ :=
              visited versionName later
            refine ⟨earlier, isEarlierVersion, ?_, same⟩
            rw [Int32.le_iff_toInt_le] at atMost ⊢
            omega

end Ends

end DistributedRdf.Engine
