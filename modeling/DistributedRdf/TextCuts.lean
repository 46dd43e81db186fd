import DistributedRdf.QueryPartition
import Mathlib.Data.List.Infix
import Mathlib.Data.List.DropRight

namespace DistributedRdf.Distribution

open Sparql List

/-!
# Where texts are cut

A separator cuts a text at its occurrences from left to right, and `split` cuts
it at runs of blanks.  These are the facts about the two that do not depend on
the query: what comes before the first occurrence of a separator, and how the
tokens of a text follow from the tokens of its parts.
-/

/-!
## Occurrences of a separator
-/

/-- An occurrence cannot cross an item that the needle does not contain. -/
theorem infix_append_cons_iff
    {needle front back : List α}
    {item : α}
    (absent : item ∉ needle) :
    needle <:+: front ++ item :: back ↔
      needle <:+: front ∨ needle <:+: back := by
  constructor
  · rintro ⟨before, after, whole⟩
    rw [append_assoc] at whole
    rcases append_eq_append_iff.mp whole with
      ⟨rest, frontIs, overlap⟩ | ⟨rest, beforeIs, overlap⟩
    · -- The needle starts within the front part.
      rcases append_eq_append_iff.mp overlap with
        ⟨between, restIs, _⟩ | ⟨between, needleIs, backIs⟩
      · left
        rw [frontIs, restIs]
        exact ⟨before, between, by simp⟩
      · cases between with
        | nil =>
            left
            rw [append_nil] at needleIs
            rw [frontIs, needleIs]
            exact (suffix_append before rest).isInfix
        | cons first others =>
            have same : item = first := by
              simpa using (cons.inj backIs).1
            exact absurd (by simp [needleIs, same]) absent
    · -- The needle starts at the item or after it.
      cases rest with
      | nil =>
          cases needle with
          | nil => exact .inl nil_infix
          | cons first others =>
              have same : item = first := by
                simpa using (cons.inj overlap).1
              exact absurd (by simp [same]) absent
      | cons first others =>
          right
          have backIs : back = others ++ (needle ++ after) := by
            simpa using (cons.inj overlap).2
          exact ⟨others, after, by simp [backIs]⟩
  · rintro (inFront | inBack)
    · exact inFront.trans (prefix_append _ _).isInfix
    · exact inBack.trans
        ((suffix_cons item back).trans
          (suffix_append front _)).isInfix

/-!
## `str.split(separator)`
-/

theorem splitOnFrom_skip
    {separator : Text}
    (skipped rest : Text) :
    splitOnFrom separator skipped.length [] (skipped ++ rest) =
      splitOn separator rest := by
  induction skipped with
  | nil => rfl
  | cons _ _ hypothesis => simpa [splitOnFrom] using hypothesis

/-- A text without the separator is one piece. -/
theorem splitOn_of_not_infix
    {separator text : Text}
    (absent : ¬ separator <:+: text) :
    splitOn separator text = [text] := by
  have pieces
      (piece text : Text)
      (absent : ¬ separator <:+: text) :
      splitOnFrom separator 0 piece text = [piece.reverse ++ text] := by
    induction text generalizing piece with
    | nil => simp [splitOnFrom]
    | cons char rest hypothesis =>
        have notHere : separator.isPrefixOf (char :: rest) ≠ true := by
          intro here
          exact absent (List.isPrefixOf_iff_prefix.mp here).isInfix
        have notLater : ¬ separator <:+: rest := by
          intro later
          exact absent (later.trans (suffix_cons char rest).isInfix)
        rw [splitOnFrom, if_neg notHere, hypothesis _ notLater]
        simp
  exact pieces [] text absent

/--
The first piece ends at the first occurrence of the separator.  That no earlier
one overlaps it is stated by leaving out the separator's last character.
-/
theorem splitOn_append
    {separator front rest : Text}
    (nonempty : separator ≠ [])
    (first : ¬ separator <:+: front ++ separator.dropLast) :
    splitOn separator (front ++ separator ++ rest) =
      front :: splitOn separator rest := by
  have pieces
      (piece front : Text)
      (first : ¬ separator <:+: front ++ separator.dropLast) :
      splitOnFrom separator 0 piece (front ++ separator ++ rest) =
        (piece.reverse ++ front) :: splitOn separator rest := by
    induction front generalizing piece with
    | nil =>
        obtain ⟨char, others, rfl⟩ := exists_cons_of_ne_nil nonempty
        have here :
            (char :: others).isPrefixOf (char :: (others ++ rest)) = true :=
          isPrefixOf_iff_prefix.mpr (prefix_append (char :: others) rest)
        rw [nil_append, cons_append, splitOnFrom, if_pos here]
        simpa using splitOnFrom_skip others rest
    | cons char others hypothesis =>
        have notHere :
            separator.isPrefixOf (char :: (others ++ separator ++ rest)) ≠
              true := by
          intro here
          have short :
              separator.length ≤
                (char :: others ++ separator.dropLast).length := by
            simp
            omega
          have both : char :: others ++ separator.dropLast <+:
              char :: (others ++ separator ++ rest) := by
            simpa using (List.dropLast_prefix separator).trans
              (prefix_append separator rest)
          exact first (prefix_of_prefix_length_le
            (List.isPrefixOf_iff_prefix.mp here) both short).isInfix
        have notLater : ¬ separator <:+: others ++ separator.dropLast := by
          intro later
          exact first (later.trans (suffix_cons char _).isInfix)
        rw [cons_append, cons_append, splitOnFrom, if_neg notHere,
          hypothesis _ notLater]
        simp
  exact pieces [] front first

variable {char : Char}

/-- A single character cuts at its first occurrence. -/
theorem splitOn_singleton_append
    {front : Text}
    (absent : char ∉ front)
    (rest : Text) :
    splitOn [char] (front ++ char :: rest) = front :: splitOn [char] rest := by
  have first : ¬ [char] <:+: front ++ [char].dropLast := by
    simpa [singleton_infix_iff] using absent
  simpa using @splitOn_append [char] front rest (by simp) first

/-!
## `str.strip()` and `str.split()`
-/

variable (text : Text)

def Blank : Prop :=
  ∀ char, char ∈ text → isSpace char = true

instance (text : Text) : Decidable (Blank text) :=
  decidableBAll (fun char => isSpace char = true) text

variable {blanks : Text}

theorem dropWhile_blank_append
    (blank : Blank blanks)
    (text : Text) :
    (blanks ++ text).dropWhile isSpace = text.dropWhile isSpace := by
  rw [List.dropWhile_append, if_pos]
  rw [List.isEmpty_iff, List.dropWhile_eq_nil_iff]
  exact blank

theorem strip_blank
    (blank : Blank blanks) :
    strip blanks = [] := by
  simp [strip, List.dropWhile_eq_nil_iff.mpr blank]

/-- `str.lstrip()` -/
def lstrip : Text :=
  text.dropWhile isSpace

theorem lstrip_lstrip_append
    (text rest : Text)
    (visible : isSpace char = false) :
    lstrip (lstrip text ++ char :: rest) = lstrip text ++ char :: rest := by
  by_cases blank : lstrip text = []
  · rw [blank, nil_append, lstrip, dropWhile_cons_of_neg]
    simp [visible]
  · unfold lstrip at blank ⊢
    rw [List.dropWhile_append, dropWhile_idempotent, if_neg]
    simpa using blank

/-- Blanks around a text that starts and ends otherwise are dropped. -/
theorem strip_append
    {lead tail middle : Text}
    {final : Char}
    (leadBlank : Blank lead)
    (tailBlank : Blank tail)
    (starts : lstrip (middle ++ [final]) = middle ++ [final])
    (ends : isSpace final = false) :
    strip (lead ++ (middle ++ final :: tail)) = middle ++ [final] := by
  have front :
      (lead ++ (middle ++ final :: tail)).dropWhile isSpace =
        middle ++ final :: tail := by
    rw [dropWhile_blank_append leadBlank, ← singleton_append,
      ← append_assoc, List.dropWhile_append, ← lstrip, starts,
      if_neg (by simp)]
  have reversedBlank : Blank tail.reverse := by
    intro char member
    exact tailBlank char (mem_reverse.mp member)
  have back :
      (middle ++ final :: tail).reverse =
        tail.reverse ++ final :: middle.reverse := by
    simp
  rw [strip, front, back, dropWhile_blank_append reversedBlank,
    dropWhile_cons_of_neg (by simp [ends])]
  simp

variable {blank : Char}

theorem splitFrom_append_blank
    (word front rest : Text)
    (isBlank : isSpace blank = true) :
    splitFrom word (front ++ blank :: rest) =
      splitFrom word front ++ split rest := by
  induction front generalizing word with
  | nil =>
      by_cases empty : word = []
      · simp [splitFrom, closeWord, isBlank, empty, split]
      · simp [splitFrom, closeWord, isBlank, empty, split]
  | cons char others hypothesis =>
      by_cases charBlank : isSpace char = true
      · by_cases empty : word = []
        · simp [splitFrom, closeWord, charBlank, empty, hypothesis]
        · simp [splitFrom, closeWord, charBlank, empty, hypothesis]
      · simp [splitFrom, charBlank, hypothesis]

/-- Tokens do not cross a blank. -/
theorem split_append_blank
    (front rest : Text)
    (isBlank : isSpace blank = true) :
    split (front ++ blank :: rest) = split front ++ split rest :=
  splitFrom_append_blank [] front rest isBlank

theorem split_blank
    (blank : Blank blanks) :
    split blanks = [] := by
  induction blanks with
  | nil => rfl
  | cons char others hypothesis =>
      have othersBlank : Blank others := by
        intro other member
        exact blank other (mem_cons_of_mem char member)
      have first := split_append_blank [] others (blank char (by simp))
      rw [nil_append] at first
      rw [first, hypothesis othersBlank]
      rfl

/-- Blanks at the end of a text do not change its tokens. -/
theorem split_append_of_blank
    (blank : Blank blanks) :
    split (text ++ blanks) = split text := by
  cases blanks with
  | nil => rw [append_nil]
  | cons char others =>
      have othersBlank : Blank others := by
        intro other member
        exact blank other (mem_cons_of_mem char member)
      rw [split_append_blank _ _ (blank char (by simp)),
        split_blank othersBlank, append_nil]

theorem split_of_blank_append
    (blank : Blank blanks)
    (text : Text) :
    split (blanks ++ text) = split text := by
  induction blanks with
  | nil => rfl
  | cons char others hypothesis =>
      have othersBlank : Blank others := by
        intro other member
        exact blank other (mem_cons_of_mem char member)
      have first := split_append_blank [] (others ++ text)
        (blank char (by simp))
      rw [nil_append] at first
      rw [cons_append, first, hypothesis othersBlank]
      rfl

/-- A text is its stripped form between blanks. -/
theorem exists_strip :
    ∃ lead tail, Blank lead ∧ Blank tail ∧
      text = lead ++ (strip text ++ tail) := by
  refine ⟨text.takeWhile isSpace,
    ((text.dropWhile isSpace).reverse.takeWhile isSpace).reverse, ?_, ?_, ?_⟩
  · intro char member
    exact mem_takeWhile_imp member
  · intro char member
    exact mem_takeWhile_imp (mem_reverse.mp member)
  · rw [strip, ← reverse_append, takeWhile_append_dropWhile,
      reverse_reverse, takeWhile_append_dropWhile]

theorem split_strip : split (strip text) = split text := by
  rcases exists_strip text with ⟨lead, tail, leadBlank, tailBlank, whole⟩
  conv_rhs => rw [whole]
  rw [split_of_blank_append leadBlank, split_append_of_blank _ tailBlank]

theorem blank_of_splitFrom_eq_nil
    {word text : Text}
    (tokens : splitFrom word text = []) :
    word = [] ∧ Blank text := by
  induction text generalizing word with
  | nil =>
      by_cases empty : word = []
      · exact ⟨empty, by simp [Blank]⟩
      · simp [splitFrom, closeWord, empty] at tokens
  | cons char others hypothesis =>
      by_cases charBlank : isSpace char = true
      · by_cases empty : word = []
        · simp only [splitFrom, charBlank, if_true, closeWord, empty]
            at tokens
          have othersBlank := (hypothesis tokens).2
          refine ⟨empty, ?_⟩
          intro other member
          rcases mem_cons.mp member with rfl | later
          · exact charBlank
          · exact othersBlank other later
        · simp [splitFrom, charBlank, closeWord, empty] at tokens
      · simp only [splitFrom, charBlank, Bool.false_eq_true, if_false]
          at tokens
        exact absurd (hypothesis tokens).1 (by simp)

variable {text}

/-- A text without tokens is blank. -/
theorem strip_eq_nil_iff :
    strip text = [] ↔ split text = [] := by
  constructor
  · intro stripped
    rw [← split_strip, stripped]
    rfl
  · intro tokens
    exact strip_blank (blank_of_splitFrom_eq_nil tokens).2

end DistributedRdf.Distribution
