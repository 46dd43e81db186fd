import DistributedRdf.SqlConversion

namespace DistributedRdf.UNData

open Words List

/-!
# String literals of a statement

A MySQL server reads the values of a statement as string literals, in which a
quote is doubled and a backslash escapes the character behind it.  The converter
takes quotes out of the values before, and other characters with them.
-/

/-! ## The lexer of the server -/

/-- What a backslash and a character stand for -/
def escapedText (char : Char) : Text :=
  if char = '0' then ['\x00']
  else if char = 'b' then ['\x08']
  else if char = 'n' then ['\n']
  else if char = 'r' then ['\r']
  else if char = 't' then ['\t']
  else if char = 'Z' then ['\x1a']
  else if char = '%' then ['\\', '%']
  else if char = '_' then ['\\', '_']
  else [char]

/-- Reads behind the opening quote: the content, and what follows the literal. -/
def readLiteral : Text → Option (Text × Text)
  | [] => none
  | '\'' :: '\'' :: rest =>
      (readLiteral rest).map fun read => ('\'' :: read.1, read.2)
  | '\'' :: rest => some ([], rest)
  | '\\' :: char :: rest =>
      (readLiteral rest).map fun read => (escapedText char ++ read.1, read.2)
  | char :: rest => (readLiteral rest).map fun read => (char :: read.1, read.2)

def skipBlanks (text : Text) : Text :=
  text.dropWhile isBlank

/-- The text is a list of literals up to a closing parenthesis. -/
inductive ReadsLiterals : Text → List Text → Prop where
  | last {text body content rest} :
      skipBlanks text = '\'' :: body →
      readLiteral body = some (content, rest) →
      skipBlanks rest = [')'] →
      ReadsLiterals text [content]
  | more {text body content rest next contents} :
      skipBlanks text = '\'' :: body →
      readLiteral body = some (content, rest) →
      skipBlanks rest = ',' :: next →
      ReadsLiterals next contents →
      ReadsLiterals text (content :: contents)

/-- The tuple is read as exactly these literals. -/
def ReadsTuple (tuple : Text) (contents : List Text) : Prop :=
  ∃ text, tuple = '(' :: text ∧ ReadsLiterals text contents

variable {text : Text}

/-- A text is read in one way only. -/
theorem ReadsLiterals.unique
    {contents others : List Text}
    (reads : ReadsLiterals text contents)
    (readsOthers : ReadsLiterals text others) :
    contents = others := by
  induction reads generalizing others with
  | last opens isLiteral closes =>
      cases readsOthers with
      | last opensOther isOther closesOther =>
          obtain ⟨-, rfl⟩ := cons.inj (opens.symm.trans opensOther)
          rw [isLiteral] at isOther
          rw [(Prod.mk.inj (Option.some.inj isOther)).1]
      | more opensOther isOther goesOn _ =>
          obtain ⟨-, rfl⟩ := cons.inj (opens.symm.trans opensOther)
          rw [isLiteral] at isOther
          rw [← (Prod.mk.inj (Option.some.inj isOther)).2, closes] at goesOn
          exact absurd (cons.inj goesOn).1 (by decide)
  | more opens isLiteral goesOn _ hypothesis =>
      cases readsOthers with
      | last opensOther isOther closes =>
          obtain ⟨-, rfl⟩ := cons.inj (opens.symm.trans opensOther)
          rw [isLiteral] at isOther
          rw [← (Prod.mk.inj (Option.some.inj isOther)).2, goesOn] at closes
          exact absurd (cons.inj closes).1 (by decide)
      | more opensOther isOther goesOnOther readsRest =>
          obtain ⟨-, rfl⟩ := cons.inj (opens.symm.trans opensOther)
          rw [isLiteral] at isOther
          obtain ⟨sameContent, sameRest⟩ :=
            Prod.mk.inj (Option.some.inj isOther)
          rw [← sameRest, goesOn] at goesOnOther
          obtain ⟨-, rfl⟩ := cons.inj goesOnOther
          rw [sameContent, hypothesis readsRest]

/-! ## Normalized values -/

theorem foldl_filter
    {names : List Char} :
    names.foldl (fun text name => text.filter (· ≠ name)) text =
      text.filter (· ∉ names) := by
  induction names generalizing text with
  | nil => simp
  | cons name rest hypothesis =>
      rw [foldl_cons, hypothesis, filter_filter]
      simp [Bool.and_comm]

variable {input : Text}

/-- Blanks become underscores, and the characters of tuples go. -/
theorem normalizeInput_eq :
    normalizeInput input =
      (input.map fun char => if char = ' ' then '_' else char).filter
        (· ∉ removedChars) :=
  foldl_filter

theorem quote_not_mem_normalizeInput :
    '\'' ∉ normalizeInput input := by
  rw [normalizeInput_eq, mem_filter]
  rintro ⟨-, kept⟩
  exact absurd kept (by decide)

theorem backslash_not_mem_normalizeInput
    (noBackslash : '\\' ∉ input) :
    '\\' ∉ normalizeInput input := by
  rw [normalizeInput_eq, mem_filter, mem_map]
  rintro ⟨⟨char, member, same⟩, -⟩
  split at same
  · exact absurd same (by decide)
  · exact noBackslash (same ▸ member)

/-! ## Reading a tuple -/

/-- A literal without quotes and backslashes ends at the next quote. -/
theorem readLiteral_append
    {content rest : Text}
    (noQuote : '\'' ∉ content)
    (noBackslash : '\\' ∉ content)
    (ends : rest.head? ≠ some '\'') :
    readLiteral (content ++ '\'' :: rest) = some (content, rest) := by
  induction content with
  | nil =>
      cases rest with
      | nil => rfl
      | cons next others =>
          have notQuote : next ≠ '\'' := fun same => ends (congrArg some same)
          rw [nil_append, readLiteral]
          rintro more same
          exact notQuote (cons.inj same).1
  | cons char others hypothesis =>
      obtain ⟨notQuote, noQuotes⟩ := not_or.mp (mem_cons.not.mp noQuote)
      obtain ⟨notBackslash, noBackslashes⟩ :=
        not_or.mp (mem_cons.not.mp noBackslash)
      have read := hypothesis noQuotes noBackslashes
      rw [cons_append, readLiteral, read]
      · rfl
      · exact fun _ same => absurd same.symm notQuote
      · exact fun same => absurd same.symm notQuote
      · exact fun _ _ same => absurd same.symm notBackslash

theorem ReadsLiterals.blank
    {contents : List Text}
    (reads : ReadsLiterals text contents) :
    ReadsLiterals (' ' :: text) contents := by
  have skips : skipBlanks (' ' :: text) = skipBlanks text := rfl
  cases reads with
  | last opens isLiteral closes =>
      exact .last (skips.trans opens) isLiteral closes
  | more opens isLiteral goesOn readsRest =>
      exact .more (skips.trans opens) isLiteral goesOn readsRest

theorem readLiteral_quoted
    {value rest : Text}
    (noBackslash : '\\' ∉ value)
    (ends : rest.head? ≠ some '\'') :
    readLiteral (normalizeInput value ++ ['\''] ++ rest) =
      some (normalizeInput value, rest) := by
  rw [append_assoc]
  exact readLiteral_append quote_not_mem_normalizeInput
    (backslash_not_mem_normalizeInput noBackslash) ends

theorem readsLiterals_of_noBackslash
    {value : Text}
    {rest : List Text}
    (noBackslash : ∀ other ∈ value :: rest, '\\' ∉ other) :
    ReadsLiterals
      (quoted value ++ rest.flatMap (fun value => ", ".toList ++ quoted value) ++
        [')'])
      ((value :: rest).map normalizeInput) := by
  induction rest generalizing value with
  | nil =>
      rw [forall_mem_singleton] at noBackslash
      have literal := @readLiteral_quoted value [')'] noBackslash nofun
      rw [flatMap_nil, append_nil]
      exact .last rfl literal rfl
  | cons next rest hypothesis =>
      rw [forall_mem_cons] at noBackslash
      have later := (hypothesis noBackslash.2).blank
      have whole : quoted value ++
          (next :: rest).flatMap (fun value => ", ".toList ++ quoted value) ++
            [')'] =
          '\'' :: (normalizeInput value ++ ['\''] ++ ',' :: ' ' ::
            (quoted next ++ rest.flatMap
              (fun value => ", ".toList ++ quoted value) ++ [')'])) := by
        simp [quoted]
      rw [whole]
      exact .more rfl (readLiteral_quoted noBackslash.1 (by simp)) rfl later

/-- Each value is one literal, whose content is the normalized value. -/
theorem readsTuple_iff
    {values contents : List Text}
    {tuple : Text}
    (isTuple : valuesTuple values = some tuple)
    (noBackslash : ∀ value ∈ values, '\\' ∉ value) :
    ReadsTuple tuple contents ↔ contents = values.map normalizeInput := by
  cases values with
  | nil => exact absurd isTuple nofun
  | cons value rest =>
      obtain rfl := Option.some.inj isTuple
      have reads := readsLiterals_of_noBackslash noBackslash
      constructor
      · rintro ⟨text, same, readsOthers⟩
        obtain ⟨-, rfl⟩ := cons.inj same
        exact readsOthers.unique reads
      · rintro rfl
        exact ⟨_, rfl, reads⟩

theorem readsTuple_cities :
    ReadsTuple "('New_York', 'Rio')".toList
      ["New_York".toList, "Rio".toList] :=
  (@readsTuple_iff ["New York".toList, "Rio".toList] _ _ rfl
    (by decide)).mpr (by decide)

/-- A name with a blank comes back with an underscore. -/
theorem not_readsTuple_newYork :
    valuesTuple ["New York".toList] = some "('New_York')".toList ∧
      ¬ ReadsTuple "('New_York')".toList ["New York".toList] := by
  refine ⟨by decide, ?_⟩
  rintro ⟨text, same, reads⟩
  have readsNormalized :=
    @readsLiterals_of_noBackslash "New York".toList [] (by decide)
  obtain ⟨-, rfl⟩ := cons.inj same
  exact absurd (reads.unique readsNormalized) (by decide)

end DistributedRdf.UNData
