import Mathlib.Data.List.Infix

namespace DistributedRdf

open List Option

/-!
# Longest match scanning

A scanner for a token language cuts the longest non-empty prefix that is a
token off the text, and goes on with what is left.  `tokenOf` says which words
are tokens.  `LongestToken` is the condition under which one cut is made, and
`scan_cons_iff` gives the cuts of a whole text in its terms.
-/

section Scanning

variable {Letter : Type*}
variable {Token : Type*}
variable {Reading : Type*}

/-- The longest non-empty prefix with at most `bound` letters that is a token. -/
def longestUpTo
    (tokenOf : List Letter → Option Token)
    (text : List Letter) :
    Nat → Option (Token × Nat)
  | 0 => none
  | bound + 1 =>
      match tokenOf (text.take (bound + 1)) with
      | some token => some (token, bound + 1)
      | none => longestUpTo tokenOf text bound

/-- Scan a text whose first `covered` letters belong to the last token. -/
def scanFrom (tokenOf : List Letter → Option Token) :
    Nat → List Letter → Option (List Token)
  | _, [] => some []
  | covered + 1, _ :: text => scanFrom tokenOf covered text
  | 0, letter :: text =>
      match longestUpTo tokenOf (letter :: text) (text.length + 1) with
      | none => none
      | some (token, length) =>
          (scanFrom tokenOf (length - 1) text).map (token :: ·)

def scan
    (tokenOf : List Letter → Option Token)
    (text : List Letter) :
    Option (List Token) :=
  scanFrom tokenOf 0 text

/-- `word` is the token that the scanner cuts off `word ++ rest`. -/
structure LongestToken
    (tokenOf : List Letter → Option Token)
    (word rest : List Letter)
    (token : Token) : Prop where
  nonempty : word ≠ []
  recognised : tokenOf word = some token
  maximal :
    ∀ more, more ≠ [] → more <+: rest → tokenOf (word ++ more) = none

variable {tokenOf : List Letter → Option Token}
variable {text word rest : List Letter}
variable {token : Token}

/-- A token is longest if no word goes on with the next letter. -/
theorem longestToken_of_first
    {first : Letter}
    (nonempty : word ≠ [])
    (recognised : tokenOf word = some token)
    (refused :
      ∀ more, more <+: rest → tokenOf (word ++ first :: more) = none) :
    LongestToken tokenOf word (first :: rest) token := by
  refine ⟨nonempty, recognised, ?_⟩
  intro more moreNonempty isPrefix
  rcases prefix_cons_iff.mp isPrefix with empty | ⟨others, rfl, within⟩
  · exact absurd empty moreNonempty
  · exact refused others within

theorem scanFrom_append (word rest : List Letter) :
    scanFrom tokenOf word.length (word ++ rest) = scan tokenOf rest := by
  induction word with
  | nil => rfl
  | cons letter word hypothesis =>
      rw [length_cons, cons_append, scanFrom]
      exact hypothesis

section

variable (longest : LongestToken tokenOf word rest token)

include longest

theorem longestUpTo_of_longest
    {extra : Nat}
    (within : extra ≤ rest.length) :
    longestUpTo tokenOf (word ++ rest) (word.length + extra) =
      some (token, word.length) := by
  induction extra with
  | zero =>
      obtain ⟨letter, others, wordIs⟩ :=
        exists_cons_of_ne_nil longest.nonempty
      have whole : (word ++ rest).take (others.length + 1) = word := by
        simp [wordIs]
      have recognised := longest.recognised
      rw [Nat.add_zero]
      simp only [wordIs, length_cons] at whole recognised ⊢
      rw [longestUpTo, whole, recognised]
  | succ extra hypothesis =>
      have longer :
          (word ++ rest).take (word.length + extra + 1) =
            word ++ rest.take (extra + 1) := by
        rw [Nat.add_assoc, take_length_add_append]
      have notToken : tokenOf (word ++ rest.take (extra + 1)) = none := by
        apply longest.maximal _ _ (List.take_prefix _ rest)
        intro empty
        have := congrArg length empty
        simp only [length_take, length_nil] at this
        omega
      rw [← Nat.add_assoc, longestUpTo, longer, notToken]
      exact hypothesis (Nat.le_of_succ_le within)

/-- A token that cannot be continued is the first one of the text. -/
theorem scan_of_longest :
    scan tokenOf (word ++ rest) =
      (scan tokenOf rest).map (token :: ·) := by
  have found := longestUpTo_of_longest longest (Nat.le_refl rest.length)
  obtain ⟨letter, others, rfl⟩ :=
    exists_cons_of_ne_nil longest.nonempty
  have bound :
      (others ++ rest).length + 1 =
        (letter :: others).length + rest.length := by
    simp only [length_append, length_cons]
    omega
  rw [scan, cons_append, scanFrom, bound,
    ← cons_append, found]
  simp [scanFrom_append]

end

/-- What the search for the longest prefix finds cannot be continued. -/
theorem longestToken_of_longestUpTo
    {bound length : Nat}
    (found : longestUpTo tokenOf text bound = some (token, length))
    (beyond :
      ∀ longer, bound < longer → longer ≤ text.length →
        tokenOf (text.take longer) = none)
    (within : bound ≤ text.length) :
    0 < length ∧
      LongestToken tokenOf (text.take length) (text.drop length) token := by
  induction bound with
  | zero => simp [longestUpTo] at found
  | succ bound hypothesis =>
      rw [longestUpTo] at found
      cases recognised : tokenOf (text.take (bound + 1)) with
      | none =>
          rw [recognised] at found
          refine hypothesis found ?_ (Nat.le_of_succ_le within)
          intro longer above longerWithin
          rcases Nat.eq_or_lt_of_le above with same | further
          · rw [← same]
            exact recognised
          · exact beyond longer further longerWithin
      | some token' =>
          rw [recognised] at found
          simp only [some.injEq, Prod.mk.injEq] at found
          obtain ⟨rfl, rfl⟩ := found
          refine ⟨Nat.succ_pos bound, ?_, recognised, ?_⟩
          · intro empty
            have := congrArg length empty
            simp only [length_take, length_nil] at this
            omega
          · intro more nonempty isPrefix
            have moreIs := prefix_iff_eq_take.mp isPrefix
            have positive := length_pos_of_ne_nil nonempty
            have short := isPrefix.length_le
            rw [length_drop] at short
            have longer :
                text.take (bound + 1) ++ more =
                  text.take (bound + 1 + more.length) := by
              rw [@take_add _ text (bound + 1), ← moreIs]
            rw [longer]
            exact beyond _ (by omega) (by omega)

/-- A scanned text is its first longest token and a scanned rest. -/
theorem exists_of_scan
    {tokens : List Token}
    (nonempty : text ≠ [])
    (scanned : scan tokenOf text = some tokens) :
    ∃ word rest token others,
      text = word ++ rest ∧
        LongestToken tokenOf word rest token ∧
        scan tokenOf rest = some others ∧ tokens = token :: others := by
  obtain ⟨letter, letters, rfl⟩ := exists_cons_of_ne_nil nonempty
  have first := scanned
  rw [scan, scanFrom] at first
  cases found :
      longestUpTo tokenOf (letter :: letters) (letters.length + 1) with
  | none => simp [found] at first
  | some cut =>
      obtain ⟨token, length⟩ := cut
      obtain ⟨-, longest⟩ :=
        longestToken_of_longestUpTo found
          (fun longer above within =>
            absurd within (Nat.not_le.mpr above))
          (Nat.le_refl _)
      have parted := scan_of_longest longest
      rw [take_append_drop, scanned] at parted
      obtain ⟨others, rest, tokensAre⟩ :=
        map_eq_some_iff.mp parted.symm
      exact ⟨_, _, token, others, (take_append_drop _ _).symm,
        longest, rest, tokensAre.symm⟩

/-- No prefix of the text that is a token is longer than the first token. -/
theorem LongestToken.length_le
    {shorter : List Letter}
    {other : Token}
    (longest : LongestToken tokenOf word rest token)
    (isPrefix : shorter <+: word ++ rest)
    (recognised : tokenOf shorter = some other) :
    shorter <+: word := by
  rcases prefix_or_prefix_of_prefix isPrefix
      (prefix_append word rest) with within | beyond
  · exact within
  · obtain ⟨more, rfl⟩ := beyond
    by_cases empty : more = []
    · simp [empty]
    · have notToken :=
        longest.maximal more empty
          ((prefix_append_right_inj word).mp isPrefix)
      rw [notToken] at recognised
      exact absurd recognised (some_ne_none other).symm

end Scanning

/-!
## Reading the tokens of a text
-/

section ReadingTokens

variable {Letter : Type*}
variable {Token : Type*}
variable {Reading : Type*}

/-- Run a reader over the tokens of a text. -/
def readText
    (tokenOf : List Letter → Option Token)
    (step : Reading → Token → Option Reading)
    (reading : Reading)
    (text : List Letter) :
    Option Reading :=
  (scan tokenOf text).bind (·.foldlM step reading)

variable {tokenOf : List Letter → Option Token}
variable {step : Reading → Token → Option Reading}
variable {reading : Reading}
variable {word rest text : List Letter}
variable {token : Token}

/-- The reader takes the first token, then it reads the rest. -/
theorem readText_of_longest
    (longest : LongestToken tokenOf word rest token) :
    readText tokenOf step reading (word ++ rest) =
      (step reading token).bind (readText tokenOf step · rest) := by
  rw [readText, scan_of_longest longest]
  cases scanned : scan tokenOf rest with
  | none =>
      cases step reading token <;>
        simp [readText, scanned]
  | some others =>
      cases stepped : step reading token <;>
        simp [readText, scanned, stepped]

/-- Reading stops where the reader refuses every first token. -/
theorem readText_eq_none
    (nonempty : text ≠ [])
    (refused :
      ∀ word rest token,
        text = word ++ rest → LongestToken tokenOf word rest token →
          (step reading token).bind (readText tokenOf step · rest) = none) :
    readText tokenOf step reading text = none := by
  cases scanned : scan tokenOf text with
  | none => simp [readText, scanned]
  | some tokens =>
      obtain ⟨word, rest, token, others, textIs, longest, -, -⟩ :=
        exists_of_scan nonempty scanned
      rw [textIs, readText_of_longest longest]
      exact refused word rest token textIs longest

end ReadingTokens

end DistributedRdf
