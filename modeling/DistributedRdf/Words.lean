import Mathlib.Data.List.Basic

namespace DistributedRdf.Words

open List

/-!
# Words of a line

Lines are written by joining texts with blanks and read by splitting them at
white space.  A text comes back as it was when it is a word; the others are
split up or get lost.
-/

abbrev Text := List Char

/-- The white space of byte strings -/
def isBlank (char : Char) : Bool :=
  char = ' ' || char = '\t' || char = '\n' || char = '\r' ||
    char = '\x0b' || char = '\x0c'

/-- Splits at any white space, without empty parts. -/
def words (text : Text) : List Text :=
  (text.splitOnP isBlank).filter (· ≠ [])

/-- What `words` can yield -/
def IsWord (text : Text) : Prop :=
  text ≠ [] ∧ ∀ char, char ∈ text → isBlank char = false

instance (text : Text) : Decidable (IsWord text) :=
  @instDecidableAnd _ _ inferInstance
    (decidableBAll (fun char => isBlank char = false) text)

def joined (texts : List Text) : Text :=
  [' '].intercalate texts

/-- Splits at every blank; empty parts at the end are left out. -/
def splitAtBlanks (text : Text) : List Text :=
  if ' ' ∈ text then
    ((text.splitOn ' ').reverse.dropWhile (· = [])).reverse
  else
    [text]

/-- The words of the first line of the texts -/
def lineWords (texts : List Text) : List Text :=
  words ((joined texts ++ ['\n']).takeWhile (· ≠ '\n'))

def decimal : Int → Text
  | .ofNat n => Nat.toDigits 10 n
  | .negSucc n => '-' :: Nat.toDigits 10 (n + 1)

def toNat (text : Text) : Option Nat :=
  if text ≠ [] ∧ text.all Char.isDigit then
    some (Nat.ofDigitChars 10 text 0)
  else
    none

/-- Reads a number with an optional sign. -/
def toInt : Text → Option Int
  | '-' :: digits => (toNat digits).map fun n => - (n : Int)
  | '+' :: digits => (toNat digits).map Int.ofNat
  | digits => (toNat digits).map Int.ofNat

/-! ## Words -/

theorem not_blank_of_mem_splitOnP
    {text part : Text}
    (isPart : part ∈ text.splitOnP isBlank) :
    ∀ char, char ∈ part → isBlank char = false := by
  induction text generalizing part with
  | nil =>
      rw [splitOnP_nil, mem_singleton] at isPart
      simp [isPart]
  | cons first rest hypothesis =>
      rw [splitOnP_cons_eq_if_modifyHead] at isPart
      split at isPart
      · rcases mem_cons.mp isPart with rfl | isPart
        · simp
        · exact hypothesis isPart
      · rename_i notBlank
        cases split : rest.splitOnP isBlank with
        | nil => exact absurd split (splitOnP_ne_nil isBlank rest)
        | cons head tail =>
            rw [split, modifyHead_cons] at isPart
            have ofRest : ∀ other, other ∈ head :: tail →
                ∀ char, char ∈ other → isBlank char = false := by
              rw [← split]
              exact fun other => hypothesis
            rcases mem_cons.mp isPart with rfl | isPart
            · intro char member
              rcases mem_cons.mp member with rfl | member
              · exact Bool.eq_false_iff.mpr notBlank
              · exact ofRest head mem_cons_self char member
            · exact ofRest part (mem_cons_of_mem head isPart)

theorem isWord_of_mem_words
    {text word : Text}
    (member : word ∈ words text) :
    IsWord word := by
  obtain ⟨isPart, nonempty⟩ := mem_filter.mp member
  exact ⟨decide_eq_true_eq.mp nonempty, not_blank_of_mem_splitOnP isPart⟩

variable {text : Text}

theorem words_eq_singleton
    (isWord : IsWord text) :
    words text = [text] := by
  rw [words, splitOnP_eq_singleton isWord.2]
  simp [isWord.1]

theorem words_append_blank
    {before after : Text} :
    words (before ++ ' ' :: after) = words before ++ words after := by
  have blank : isBlank ' ' = true := by decide
  rw [words, splitOnP_append_cons before after blank, filter_append]
  rfl

variable {char : Char}

theorem IsWord.not_mem
    (isWord : IsWord text)
    (blank : isBlank char = true) :
    char ∉ text :=
  fun member => absurd (isWord.2 char member) (by rw [blank]; decide)

/-! ## Words of a line -/

variable {texts : List Text}

theorem isWord_of_mem_lineWords
    {word : Text}
    (member : word ∈ lineWords texts) :
    IsWord word :=
  isWord_of_mem_words member

/-- A word in front is read as it was written. -/
theorem lineWords_cons
    {rest : List Text}
    (isWord : IsWord text) :
    lineWords (text :: rest) = text :: lineWords rest := by
  have sameLine : ∀ char, char ∈ text → decide (char ≠ '\n') = true := by
    intro char member
    refine decide_eq_true fun isBreak => ?_
    exact isWord.not_mem (by decide) (isBreak ▸ member)
  cases rest with
  | nil =>
      have lineEnd : (['\n']).takeWhile (· ≠ '\n') = [] := rfl
      rw [lineWords, joined, intercalate_singleton,
        takeWhile_append_of_pos sameLine, lineEnd, append_nil,
        words_eq_singleton isWord]
      rfl
  | cons next rest =>
      have joins : joined (text :: next :: rest) ++ ['\n'] =
          text ++ ' ' :: (joined (next :: rest) ++ ['\n']) := by
        simp [joined, intercalate_cons_cons]
      have keepsBlank : ∀ after : Text,
          (' ' :: after).takeWhile (· ≠ '\n') =
            ' ' :: after.takeWhile (· ≠ '\n') := fun _ => rfl
      rw [lineWords, joins, takeWhile_append_of_pos sameLine, keepsBlank,
        words_append_blank, words_eq_singleton isWord]
      rfl

theorem lineWords_eq_self
    (allWords : ∀ text, text ∈ texts → IsWord text) :
    lineWords texts = texts := by
  induction texts with
  | nil => rfl
  | cons text rest hypothesis =>
      rw [lineWords_cons (allWords text mem_cons_self),
        hypothesis fun other member =>
          allWords other (mem_cons_of_mem text member)]

/-! ## Numbers -/

theorem isWord_of_digits
    {digits : Text}
    (nonempty : digits ≠ [])
    (allDigits : ∀ char, char ∈ digits → char.isDigit = true) :
    IsWord digits := by
  refine ⟨nonempty, fun char member => ?_⟩
  refine Bool.eq_false_iff.mpr fun blank => ?_
  have isDigit := allDigits char member
  simp only [isBlank, Bool.or_eq_true, decide_eq_true_eq] at blank
  rcases blank with ((((rfl | rfl) | rfl) | rfl) | rfl) | rfl
  all_goals exact absurd isDigit (by decide)

theorem isWord_toDigits {n : Nat} : IsWord (Nat.toDigits 10 n) :=
  isWord_of_digits Nat.toDigits_ne_nil fun _ member =>
    Nat.isDigit_of_mem_toDigits (by decide) (by decide) member

variable {i : Int}

theorem isWord_decimal : IsWord (decimal i) := by
  cases i with
  | ofNat n => exact isWord_toDigits
  | negSucc n =>
      refine ⟨cons_ne_nil _ _, fun char member => ?_⟩
      rcases mem_cons.mp member with rfl | member
      · rfl
      · exact isWord_toDigits.2 char member

theorem mem_decimal
    (member : char ∈ decimal i) :
    char = '-' ∨ char.isDigit = true := by
  cases i with
  | ofNat n =>
      exact .inr (Nat.isDigit_of_mem_toDigits (by decide) (by decide) member)
  | negSucc n =>
      refine (mem_cons.mp member).imp_right fun member => ?_
      exact Nat.isDigit_of_mem_toDigits (by decide) (by decide) member

@[simp] theorem toNat_toDigits {n : Nat} :
    toNat (Nat.toDigits 10 n) = some n := by
  have digits : ((Nat.toDigits 10 n).all Char.isDigit) = true :=
    all_eq_true.mpr fun _ member =>
      Nat.isDigit_of_mem_toDigits (by decide) (by decide) member
  rw [toNat, if_pos ⟨Nat.toDigits_ne_nil, digits⟩, Nat.ofDigitChars_ten_toDigits]

/-- A number in decimals is read as itself. -/
@[simp] theorem toInt_decimal :
    toInt (decimal i) = some i := by
  cases i with
  | negSucc n =>
      rw [decimal, toInt, toNat_toDigits]
      rfl
  | ofNat n =>
      cases digits : Nat.toDigits 10 n with
      | nil => exact absurd digits Nat.toDigits_ne_nil
      | cons first rest =>
          have isDigit : first.isDigit = true := by
            have member : first ∈ Nat.toDigits 10 n :=
              digits ▸ mem_cons_self
            exact Nat.isDigit_of_mem_toDigits (by decide) (by decide) member
          rw [decimal, digits]
          unfold toInt
          split
          · rename_i same
            obtain ⟨rfl, -⟩ := cons.inj same
            exact absurd isDigit (by decide)
          · rename_i same
            obtain ⟨rfl, -⟩ := cons.inj same
            exact absurd isDigit (by decide)
          · rw [← digits, toNat_toDigits]
            rfl

/-! ## Strings that are cut at blanks -/

/-- Words with single blanks between them -/
def SingleBlanked (text : Text) : Prop :=
  ∀ part, part ∈ text.splitOn ' ' → IsWord part
  deriving Decidable

theorem splitAtBlanks_eq_splitOn
    (single : SingleBlanked text) :
    splitAtBlanks text = text.splitOn ' ' := by
  unfold splitAtBlanks
  split
  · cases reversed : (text.splitOn ' ').reverse with
    | nil => rw [dropWhile_nil, ← reversed, reverse_reverse]
    | cons last rest =>
        have isPart : last ∈ text.splitOn ' ' :=
          mem_reverse.mp (reversed ▸ mem_cons_self)
        rw [dropWhile_cons_of_neg, ← reversed, reverse_reverse]
        simpa using (single last isPart).1
  · rename_i noBlank
    rw [splitOn_eq_singleton noBlank]

/-- Joined words have single blanks, and a text with single blanks is the
joined words that it is cut into. -/
theorem joined_splitOn :
    joined (text.splitOn ' ') = text :=
  intercalate_splitOn ' '

variable {parts : List Text}

theorem singleBlanked_joined
    (nonempty : parts ≠ [])
    (allWords : ∀ part, part ∈ parts → IsWord part) :
    SingleBlanked (joined parts) := by
  have noBlank : ∀ part, part ∈ parts → ' ' ∉ part := fun part member =>
    (allWords part member).not_mem (by decide)
  intro part member
  rw [joined, splitOn_intercalate ' ' noBlank nonempty] at member
  exact allWords part member

theorem SingleBlanked.isWord_of_mem
    {text part : Text}
    (single : SingleBlanked text)
    (member : part ∈ splitAtBlanks text) :
    IsWord part :=
  single part (splitAtBlanks_eq_splitOn single ▸ member)

/-- A text that is joined from as many words as it was cut into -/
theorem singleBlanked_of_joined
    (length : parts.length = (splitAtBlanks text).length)
    (allWords : ∀ part, part ∈ parts → IsWord part)
    (same : joined parts = text) :
    SingleBlanked text := by
  subst same
  refine singleBlanked_joined (fun isEmpty => ?_) allWords
  rw [isEmpty] at length
  exact absurd length (by decide)

end DistributedRdf.Words
