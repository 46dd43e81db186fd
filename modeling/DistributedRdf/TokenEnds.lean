import DistributedRdf.SparqlTerminals

namespace DistributedRdf.InsertedText

open CharRanges List Option

open Sparql (Text)

/-!
# Where tokens end

For each kind of token, the texts that may follow a word of the kind without
becoming a part of its token.
-/

section FirstCharacters

variable
  {text : Text}
  {char first : Char}

theorem tokenOf_iriRef : tokenOf ('<' :: text) = iriRef text := by
  simp [tokenOf]

theorem tokenOf_blankNodeLabel :
    tokenOf ('_' :: text) = blankNodeLabel text := by
  simp [tokenOf]

theorem tokenOf_langTag : tokenOf ('@' :: text) = langTag text := by
  simp [tokenOf]

theorem tokenOf_string
    (isMark : char = '"' ∨ char = '\'') :
    tokenOf (char :: text) = (stringBody char text).map .string := by
  rcases isMark with rfl | rfl <;> simp [tokenOf]

theorem tokenOf_blank :
    tokenOf (' ' :: text) = if text.isEmpty then some .space else none := by
  simp [tokenOf, whiteSpace, holds]

theorem tokenOf_colon :
    tokenOf (':' :: text) = wordOrName (':' :: text) := by
  simp [tokenOf, whiteSpace, holds]

/-- The characters before which `tokenOf` decides without a class. -/
theorem ne_special_of_holds
    {ranges : CharRanges}
    (holds : ranges.holds first = true)
    (disjoint :
      ['<', '_', '@', '"', '\'', '#', ':'].any ranges.holds = false) :
    ∀ special ∈ ['<', '_', '@', '"', '\'', '#', ':'], first ≠ special := by
  rintro special member rfl
  exact absurd holds (any_eq_false.mp disjoint first member)

theorem tokenOf_letter
    (isLetter : letters.holds first = true) :
    tokenOf (first :: text) = wordOrName (first :: text) := by
  have differs := ne_special_of_holds isLetter rfl
  have notBlank : whiteSpace.holds first = false :=
    not_holds_of_disjoint isLetter (by decide)
  have begins : pnCharsBase.holds first = true := by
    simp [pnCharsBase, holds_append, isLetter]
  simp [tokenOf, differs, notBlank, begins]

theorem tokenOf_number
    {state : NumberState}
    (starts : NumberState.start.next first = some state) :
    tokenOf (first :: text) = numberOrSymbol (first :: text) := by
  by_cases isDigit : digits.holds first = true
  · have differs := ne_special_of_holds isDigit rfl
    have notBlank : whiteSpace.holds first = false :=
      not_holds_of_disjoint isDigit (by decide)
    have notName : pnCharsBase.holds first = false :=
      not_holds_of_disjoint isDigit (by decide)
    simp [tokenOf, differs, notBlank, notName]
  · have isSign : first = '+' ∨ first = '-' ∨ first = '.' := by
      by_contra other
      simp only [not_or] at other
      simp [NumberState.next, isDigit, other] at starts
    rcases isSign with rfl | rfl | rfl <;>
      simp [tokenOf, whiteSpace, pnCharsBase, letters, holds]

end FirstCharacters

/-!
## Tokens with a closing character
-/

theorem longest_iriRef (iri : Iri) (rest : Text) :
    LongestToken tokenOf ('<' :: (iri.text ++ ['>'])) rest (.iriRef iri) := by
  refine ⟨cons_ne_nil _ _, ?_, ?_⟩
  · simp [tokenOf_iriRef, iriRef, iri.valid]
  · intro more nonempty _
    have inside : ('>' :: more).dropLast = '>' :: more.dropLast := by
      simp [dropLast_cons_of_ne_nil nonempty]
    have notIri :
        ((iri.text ++ ['>']) ++ more).dropLast.all iriChars.holds = false := by
      rw [append_assoc, singleton_append,
        dropLast_append_of_ne_nil (cons_ne_nil _ _), inside]
      simp [iriChars, holds]
    rw [cons_append, tokenOf_iriRef, iriRef,
      dif_neg (Bool.eq_false_iff.mp notIri), ite_self]

variable
  {mark : Char}
  {lexical : Text}
  {more : Text}
  {text : Text}

theorem shortBody_append
    (reads : shortBody mark text = some lexical)
    (nonempty : more ≠ []) :
    shortBody mark (text ++ more) = none := by
  induction text using shortBody.induct mark generalizing lexical with
  | case1 => simp [shortBody] at reads
  | case2 =>
      obtain ⟨first, others, rfl⟩ := exists_cons_of_ne_nil nonempty
      simp [shortBody]
  | case3 char different => simp [shortBody, different] at reads
  | case4 next others => simp [shortBody] at reads
  | case5 next others different hypothesis =>
      rw [shortBody, if_neg different, if_pos rfl] at reads
      obtain ⟨escaped, isEscape, rest⟩ := bind_eq_some_iff.mp reads
      obtain ⟨value, body, -⟩ := map_eq_some_iff.mp rest
      simp [shortBody, different, hypothesis body]
  | case6 char next others different noEscape lineEnd =>
      simp [shortBody, different, noEscape, lineEnd] at reads
  | case7 char next others different noEscape noLineEnd hypothesis =>
      rw [shortBody, if_neg different, if_neg noEscape, if_neg noLineEnd]
        at reads
      obtain ⟨value, body, -⟩ := map_eq_some_iff.mp reads
      have after := hypothesis body
      rw [cons_append] at after
      simp [shortBody, different, noEscape, noLineEnd, after]

theorem longBody_append
    (reads : longBody mark text = some lexical)
    (nonempty : more ≠ []) :
    longBody mark (text ++ more) = none := by
  induction text using longBody.induct mark generalizing lexical with
  | case1 char next third others closing noMore =>
      obtain ⟨rfl, rfl, rfl⟩ := closing
      simp [longBody, nonempty]
  | case2 char next third others closing further =>
      simp [longBody, closing, further] at reads
  | case3 next third others open' hypothesis =>
      rw [longBody, if_neg open', if_pos rfl] at reads
      obtain ⟨escaped, isEscape, rest⟩ := bind_eq_some_iff.mp reads
      obtain ⟨value, body, -⟩ := map_eq_some_iff.mp rest
      have after := hypothesis body
      rw [cons_append] at after
      simp [longBody, open', after]
  | case4 char next third others open' noEscape hypothesis =>
      rw [longBody, if_neg open', if_neg noEscape] at reads
      obtain ⟨value, body, -⟩ := map_eq_some_iff.mp reads
      have after := hypothesis body
      simp only [cons_append] at after
      simp [longBody, open', noEscape, after]
  | case5 text short =>
      rw [longBody] at reads
      · exact absurd reads (some_ne_none lexical).symm
      · exact short

/-- A closed string goes on only with a third mark. -/
theorem stringBody_append
    {mark first : Char}
    (reads : stringBody mark text = some lexical)
    (noMark : first ≠ mark) :
    stringBody mark (text ++ first :: more) = none := by
  match text with
  | [] => simp [stringBody, shortBody] at reads
  | [char] =>
      rw [stringBody] at reads
      · have closed := shortBody_append reads (cons_ne_nil first more)
        simpa [stringBody, noMark] using closed
      · simp
  | char :: next :: others =>
      rw [cons_append, cons_append, stringBody]
      rw [stringBody] at reads
      by_cases isLong : char = mark ∧ next = mark
      · rw [if_pos isLong] at reads ⊢
        exact longBody_append reads (cons_ne_nil first more)
      · rw [if_neg isLong] at reads ⊢
        exact shortBody_append reads (cons_ne_nil first more)

theorem longest_string
    {mark first : Char}
    (isMark : mark = '"' ∨ mark = '\'')
    {body lexical : Text}
    (reads : stringBody mark body = some lexical)
    (noMark : first ≠ mark)
    (rest : Text) :
    LongestToken tokenOf (mark :: body) (first :: rest) (.string lexical) := by
  apply longestToken_of_first (cons_ne_nil _ _)
  · rw [tokenOf_string isMark, reads]
    rfl
  · intro more _
    rw [cons_append, tokenOf_string isMark,
      stringBody_append reads noMark]
    rfl

/-!
## Names
-/

/-- `rest` does not go on with a name in front of it. -/
def EndsName (rest : Text) : Prop :=
  ∀ more, more ≠ [] → more <+: rest →
    dottedRest more = false ∧ prefixRest more = false

theorem endsName_blank (rest : Text) : EndsName (' ' :: rest) := by
  intro more nonempty isPrefix
  rcases prefix_cons_iff.mp isPrefix with empty | ⟨others, rfl, -⟩
  · exact absurd empty nonempty
  · have noName : pnChars.holds ' ' = false := rfl
    simp [dottedRest, prefixRest, noName]

variable {first : Char}

theorem endsName_dot
    (endsHere : first = '<' ∨ first = '\x7d')
    (rest : Text) :
    EndsName ('.' :: first :: rest) := by
  intro more nonempty isPrefix
  rcases prefix_cons_iff.mp isPrefix with empty | ⟨others, rfl, within⟩
  · exact absurd empty nonempty
  · rcases prefix_cons_iff.mp within with rfl | ⟨others, rfl, -⟩
    · simp [dottedRest, prefixRest]
    · have noName : pnChars.holds first = false := by
        rcases endsHere with rfl | rfl <;> rfl
      rcases endsHere with rfl | rfl <;>
        simp [dottedRest, prefixRest, noName]

variable {front : Text}

theorem dottedRest_append
    (named : dottedRest front = true)
    (more : Text) :
    dottedRest (front ++ more) = dottedRest more := by
  induction front using dottedRest.induct with
  | case1 => rfl
  | case2 others hypothesis =>
      simp only [dottedRest, Bool.and_eq_true] at named
      have nonempty : (others ++ more).isEmpty = false := by
        cases others with
        | nil => exact absurd named.1 Bool.false_ne_true
        | cons next others => rfl
      simp [dottedRest, nonempty, hypothesis named.2]
  | case3 char others notDot hypothesis =>
      rw [dottedRest] at named
      · simp only [Bool.and_eq_true] at named
        rw [cons_append, dottedRest, named.1,
          hypothesis named.2]
        · rfl
        · exact notDot
      · exact notDot

variable {char : Char}

theorem pnChars_of_letter
    (isLetter : letters.holds char = true) :
    pnChars.holds char = true := by
  simp [pnChars, pnCharsU, pnCharsBase, holds_append, isLetter]

theorem prefixRest_append
    (named : front.all letters.holds = true)
    (more : Text) :
    prefixRest (front ++ more) = prefixRest more := by
  induction front with
  | nil => rfl
  | cons char others hypothesis =>
      simp only [all_cons, Bool.and_eq_true] at named
      rw [cons_append, prefixRest, pnChars_of_letter named.1,
        hypothesis named.2]
      · rfl
      · rintro rfl
        exact absurd named.1 (by decide)
      · rintro rfl
        exact absurd named.1 (by decide)

theorem dottedRest_of_letters
    (named : text.all letters.holds = true) :
    dottedRest text = true := by
  induction text with
  | nil => rfl
  | cons char others hypothesis =>
      simp only [all_cons, Bool.and_eq_true] at named
      rw [dottedRest, pnChars_of_letter named.1,
        hypothesis named.2]
      · rfl
      · rintro rfl
        exact absurd named.1 (by decide)

theorem isPrefixedName_letter
    (isLetter : letters.holds first = true) :
    isPrefixedName (first :: text) = prefixRest text := by
  rw [isPrefixedName]
  · simp [pnCharsBase, holds_append, isLetter]
  · rintro rfl
    exact absurd isLetter (by decide)

variable (label : BlankLabel)

theorem isBlankLabel_append
    (more : Text) :
    isBlankLabel (label.text ++ more) = dottedRest more := by
  obtain ⟨text, valid⟩ := label
  cases text with
  | nil => exact absurd valid Bool.false_ne_true
  | cons first others =>
      simp only [isBlankLabel, Bool.and_eq_true] at valid
      simp only [cons_append, isBlankLabel, valid.1, Bool.true_and]
      exact dottedRest_append valid.2 more

variable {rest : Text}

theorem longest_blankNodeLabel
    (endsHere : ∀ more, more ≠ [] → more <+: rest → dottedRest more = false) :
    LongestToken tokenOf ('_' :: ':' :: label.text) rest
      (.blankNodeLabel label) := by
  refine ⟨cons_ne_nil _ _, ?_, ?_⟩
  · simp [tokenOf_blankNodeLabel, blankNodeLabel, label.valid]
  · intro more nonempty isPrefix
    have noLabel : ¬ isBlankLabel (label.text ++ more) = true := by
      rw [isBlankLabel_append, endsHere more nonempty isPrefix]
      exact Bool.false_ne_true
    rw [cons_append, cons_append, tokenOf_blankNodeLabel,
      blankNodeLabel, dif_neg noLabel]

variable {others : Text}

theorem longest_word
    (isWord : (first :: others).all letters.holds = true)
    (endsHere : EndsName rest) :
    LongestToken tokenOf (first :: others) rest (.word (first :: others)) := by
  obtain ⟨isLetter, othersAre⟩ := by
    simpa only [all_cons, Bool.and_eq_true] using isWord
  refine ⟨cons_ne_nil _ _, ?_, ?_⟩
  · rw [tokenOf_letter isLetter, wordOrName, if_pos isWord]
  · intro more nonempty isPrefix
    obtain ⟨ended, noPrefix⟩ := endsHere more nonempty isPrefix
    have noWord : ¬ (first :: others ++ more).all letters.holds = true := by
      intro allLetters
      rw [all_append, Bool.and_eq_true] at allLetters
      rw [dottedRest_of_letters allLetters.2] at ended
      exact absurd ended.symm Bool.false_ne_true
    have noName : ¬ isPrefixedName (first :: others ++ more) = true := by
      rw [cons_append, isPrefixedName_letter isLetter,
        prefixRest_append othersAre, noPrefix]
      exact Bool.false_ne_true
    rw [cons_append, tokenOf_letter isLetter, wordOrName,
      ← cons_append, if_neg noWord, if_neg noName]

/-!
## Language tags, numbers and punctuation
-/

theorem tagParts_mem
    (isParts : tagParts text = true)
    (member : char ∈ text) :
    char ≠ '.' := by
  induction text using tagParts.induct with
  | case1 => exact absurd member not_mem_nil
  | case2 others hypothesis =>
      simp only [tagParts, Bool.and_eq_true] at isParts
      rcases mem_cons.mp member with rfl | among
      · decide
      · exact hypothesis isParts.2 among
  | case3 first others noHyphen hypothesis =>
      rw [tagParts] at isParts
      · simp only [Bool.and_eq_true] at isParts
        rcases mem_cons.mp member with rfl | among
        · rintro rfl
          exact absurd isParts.1 (by decide)
        · exact hypothesis isParts.2 among
      · exact noHyphen

theorem isLangTag_mem
    (isTag : isLangTag text = true)
    (member : char ∈ text) :
    char ≠ '.' := by
  induction text using isLangTag.induct with
  | case1 => exact absurd member not_mem_nil
  | case2 first =>
      rintro rfl
      rw [← mem_singleton.mp member] at isTag
      exact absurd isTag (by decide)
  | case3 first next others hypothesis =>
      simp only [isLangTag, Bool.and_eq_true] at isTag
      rcases mem_cons.mp member with rfl | among
      · rintro rfl
        exact absurd isTag.1 (by decide)
      · by_cases hyphen : next = '-'
        · rw [if_pos hyphen] at isTag
          exact tagParts_mem isTag.2 among
        · rw [if_neg hyphen] at isTag
          exact hypothesis isTag.2 among

theorem longest_langTag (tag : LangTag) (rest : Text) :
    LongestToken tokenOf ('@' :: tag.text) ('.' :: rest) (.langTag tag) := by
  apply longestToken_of_first (cons_ne_nil _ _)
  · simp [tokenOf_langTag, langTag, tag.valid]
  · intro more _
    have noTag : ¬ isLangTag (tag.text ++ '.' :: more) = true := by
      intro isTag
      have dotWithin : '.' ∈ tag.text ++ '.' :: more := by simp
      exact isLangTag_mem isTag dotWithin rfl
    rw [cons_append, tokenOf_langTag, langTag, dif_neg noTag]

theorem numberType_append
    {text more : Text}
    {state : NumberState}
    (reached : text.foldlM NumberState.next .start = some state) :
    numberType (text ++ more) =
      (more.foldlM NumberState.next state).bind NumberState.datatype := by
  rw [numberType, foldlM_append, reached]
  rfl

variable {datatype : Iri}

/-- A dot behind a whole number is not the end of a number. -/
theorem numberType_dot
    (isNumber : numberType text = some datatype)
    (noNumber : first = '<' ∨ first = '_' ∨ first = '\x7d')
    {rest more : Text}
    (isPrefix : more <+: first :: rest) :
    numberType (text ++ '.' :: more) = none := by
  obtain ⟨state, reached, isEnd⟩ := bind_eq_some_iff.mp isNumber
  have noDigit : digits.holds '.' = false := rfl
  rw [numberType_append reached]
  rcases prefix_cons_iff.mp isPrefix with rfl | ⟨others, rfl, -⟩
  · cases state <;>
      simp [NumberState.next, NumberState.datatype, noDigit] at isEnd ⊢
  · have noDigits : digits.holds first = false := by
      rcases noNumber with rfl | rfl | rfl <;> rfl
    have noMark : first ≠ 'e' ∧ first ≠ 'E' := by
      rcases noNumber with rfl | rfl | rfl <;> decide
    cases state <;>
      simp [NumberState.next, NumberState.datatype, noDigit, noDigits,
        noMark] at isEnd ⊢

theorem symbol_eq_none
    {first second : Char}
    (noCaret : first ≠ '^') :
    symbol (first :: second :: others) = none := by
  cases others <;> simp [symbol, noCaret]

theorem longest_number
    (isNumber : numberType text = some datatype)
    (noNumber : first = '<' ∨ first = '_' ∨ first = '\x7d')
    (rest : Text) :
    LongestToken tokenOf text ('.' :: first :: rest)
      (.number text datatype) := by
  obtain ⟨state, reached, isEnd⟩ := bind_eq_some_iff.mp isNumber
  cases text with
  | nil =>
      cases reached
      exact absurd isEnd (some_ne_none datatype).symm
  | cons leading others =>
      obtain ⟨second, starts, -⟩ := bind_eq_some_iff.mp reached
      have noCaret : leading ≠ '^' := by
        rintro rfl
        have noStart : NumberState.start.next '^' = none := rfl
        rw [noStart] at starts
        exact absurd starts (some_ne_none second).symm
      apply longestToken_of_first (cons_ne_nil _ _)
      · rw [tokenOf_number starts, numberOrSymbol, isNumber]
      · intro more isPrefix
        have noMore := numberType_dot isNumber noNumber isPrefix
        rw [cons_append] at noMore ⊢
        rw [tokenOf_number starts, numberOrSymbol, noMore]
        cases others with
        | nil | cons _ _ => exact symbol_eq_none noCaret

theorem longest_space (rest : Text) :
    LongestToken tokenOf [' '] rest .space := by
  refine ⟨cons_ne_nil _ _, rfl, ?_⟩
  intro more nonempty _
  rw [singleton_append, tokenOf_blank]
  simp [nonempty]

theorem longest_symbol
    {which : Symbol}
    (recognised : tokenOf [first] = some (.symbol which))
    (noCaret : first ≠ '^')
    (plain :
      ∀ more, more <+: rest → tokenOf (first :: more) = symbol (first :: more)) :
    LongestToken tokenOf [first] rest (.symbol which) := by
  refine ⟨cons_ne_nil _ _, recognised, ?_⟩
  intro more nonempty isPrefix
  obtain ⟨second, others, rfl⟩ := exists_cons_of_ne_nil nonempty
  exact (plain _ isPrefix).trans (symbol_eq_none noCaret)

variable (rest)

theorem longest_openBrace :
    LongestToken tokenOf ['\x7b'] rest (.symbol .openBrace) :=
  longest_symbol rfl (by decide) fun _ _ => rfl

theorem longest_closeBrace :
    LongestToken tokenOf ['\x7d'] rest (.symbol .closeBrace) :=
  longest_symbol rfl (by decide) fun _ _ => rfl

theorem longest_dot
    (noNumber : first = '<' ∨ first = '_' ∨ first = '\x7d')
    (rest : Text) :
    LongestToken tokenOf ['.'] (first :: rest) (.symbol .dot) := by
  refine longest_symbol rfl (by decide) fun more isPrefix => ?_
  rcases prefix_cons_iff.mp isPrefix with rfl | ⟨others, rfl, -⟩
  · rfl
  · rcases noNumber with rfl | rfl | rfl <;> rfl

theorem longest_carets :
    LongestToken tokenOf ['^', '^'] rest (.symbol .carets) := by
  refine ⟨cons_ne_nil _ _, rfl, ?_⟩
  intro more nonempty _
  obtain ⟨third, others, rfl⟩ := exists_cons_of_ne_nil nonempty
  rfl

end DistributedRdf.InsertedText
