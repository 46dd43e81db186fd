import DistributedRdf.CoreElements
import Mathlib.Data.List.DropRight

namespace DistributedRdf.CBinding

open Words LexState List

/-!
# Layouts of interface files

The scanner of the generator does not care how a file is divided into lines,
while the runtime reads a declaration from whole lines and cuts it at blanks.
Both see the same words where a declaration has lines of its own, without
comments in it, and its words are still apart when the lines are joined.
-/

/-! ## Joined lines -/

/-- What the runtime reads in the lines behind the first line of a region -/
def continuation : List Text → Option Text
  | [] => none
  | line :: rest =>
      if startsWith (trim line) "//".toList then
        continuation rest
      else if closes (trim line) then
        if rest = [] then some (trim line) else none
      else
        (continuation rest).map (trim line ++ ·)

/-- The text of a region, which ends with the last of the lines -/
def regionText (first : Text) (rest : List Text) : Option Text :=
  if closes (trim first) then
    if rest = [] then some (trim first) else none
  else
    (continuation rest).map (trim first ++ ·)

/-- The comment that has been opened ends with the last of the lines. -/
def endsComment : List Text → Bool
  | [] => false
  | line :: rest =>
      if startsWith (trim line) "//".toList then
        endsComment rest
      else if ['*', '/'].isSuffixOf (trim line) then
        rest = []
      else
        endsComment rest

/-- A trimmed line that the runtime passes over -/
def isSilent (line : Text) : Bool :=
  startsWith line "//".toList || startsWith line "#".toList ||
    if startsWith line "/*".toList then ['*', '/'].isSuffixOf line
    else !opens line

/-! ## Layouts -/

/-- Characters of words, blanks and the punctuation of declarations -/
def isBareChar (char : Char) : Bool :=
  isIdentifierChar char || char ∈ [' ', '\t', '(', ')', ',', ';']

variable (decl : Declaration)

/-- The joined lines are the declaration and nothing else. -/
structure IsTextOf (text : Text) : Prop where
  bare : ∀ char, char ∈ text → isBareChar char = true
  scans : Scans [text] decl.tokens

/-- The lines with what an annotation before them says that the next
declaration implements, and the declarations on them -/
inductive LaidOut {Constraints : Type} (loader : ConstraintLoader Constraints) :
    Option CImplementation → List Text → List InterfaceEntry → Prop where
  | done {implemented} :
      LaidOut loader implemented [] []
  | silent {implemented line lines entries} :
      isSilent (trim line) = true →
      LaidOut loader implemented lines entries →
      LaidOut loader implemented (line :: lines) entries
  | comment {implemented first rest lines entries} :
      startsWith (trim first) "/*".toList = true →
      ['*', '/'].isSuffixOf (trim first) = false →
      endsComment rest = true →
      LaidOut loader implemented lines entries →
      LaidOut loader implemented (first :: rest ++ lines) entries
  | constraints {implemented first rest text lines entries} :
      startsWith (trim first) constraintsStart = true →
      regionText first rest = some text →
      (loader.loadCConstraints text).isSome = true →
      LaidOut loader implemented lines entries →
      LaidOut loader implemented (first :: rest ++ lines) entries
  | implements {implemented first rest text lines entries} :
      startsWith (trim first) implementsStart = true →
      regionText first rest = some text →
      LaidOut loader (some (loadCImplementation text)) lines entries →
      LaidOut loader implemented (first :: rest ++ lines) entries
  | declaration {implemented first rest text decl lines entries} :
      opens (trim first) = true →
      regionText first rest = some text →
      IsTextOf decl text →
      LaidOut loader none lines entries →
      LaidOut loader implemented (first :: rest ++ lines)
        (⟨implemented, decl⟩ :: entries)

/-! ## Words of tokens -/

def Token.word? : Token → Option Text
  | .word text => some text
  | .symbol _ => none

variable (tokens : List Token)

def tokenWords : List Text :=
  tokens.filterMap Token.word?

@[simp] theorem tokenWords_nil : tokenWords [] = [] :=
  rfl

variable {text : Text}

@[simp] theorem tokenWords_word {rest : List Token} :
    tokenWords (.word text :: rest) = text :: tokenWords rest :=
  rfl

@[simp] theorem tokenWords_symbol {char : Char} {rest : List Token} :
    tokenWords (.symbol char :: rest) = tokenWords rest :=
  rfl

@[simp] theorem tokenWords_append {before after : List Token} :
    tokenWords (before ++ after) = tokenWords before ++ tokenWords after :=
  filterMap_append

@[simp] theorem tokenWords_words {texts : List Text} :
    tokenWords (texts.map .word) = texts := by
  induction texts with
  | nil => rfl
  | cons text rest hypothesis => rw [map_cons, tokenWords_word, hypothesis]

theorem tokenWords_arguments {args : List DeclaredArgument} :
    tokenWords ([Token.symbol ','].intercalate
      (args.map fun arg => arg.words.map .word)) =
        args.flatMap DeclaredArgument.words := by
  induction args with
  | nil => rfl
  | cons arg rest hypothesis =>
      cases rest with
      | nil => simp [intercalate_singleton]
      | cons next rest =>
          rw [flatMap_cons, ← hypothesis, map_cons,
            map_cons, intercalate_cons_cons]
          simp

/-- The words of a declaration -/
theorem tokenWords_tokens {decl : Declaration} :
    tokenWords decl.tokens =
      (if decl.isStatic then ["static".toList] else []) ++
        decl.returnType.words ++ decl.name ::
          decl.arguments.flatMap DeclaredArgument.words := by
  simp only [Declaration.tokens, tokenWords_append, tokenWords_arguments]
  cases decl.isStatic <;> simp

/-! ## Scanning a text without comments -/

variable {tokens}

theorem readChar_initial {char : Char} :
    readChar ⟨.initial, tokens⟩ char =
      readInitial ⟨.initial, tokens⟩ char :=
  rfl

variable {word : Text}

theorem readChar_word {char : Char} :
    readChar ⟨.word word, tokens⟩ char =
      if isIdentifierChar char then ⟨.word (word ++ [char]), tokens⟩
      else readInitial ⟨.initial, tokens ++ [.word word]⟩ char :=
  rfl

theorem foldl_readChar_error :
    text.foldl readChar ⟨.error, tokens⟩ = ⟨.error, tokens⟩ := by
  induction text with
  | nil => rfl
  | cons char rest hypothesis => exact hypothesis

/-- What separates the words of a bare text -/
def isSeparator (char : Char) : Bool :=
  char ∈ [' ', '\t', '\n', '(', ')', ',', ';']

variable {rest : Text}

theorem withoutPunctuation_separator
    {char : Char}
    (separator : isSeparator char = true) :
    withoutPunctuation (char :: rest) = ' ' :: withoutPunctuation rest := by
  simp only [isSeparator, mem_cons, not_mem_nil, or_false,
    decide_eq_true_eq] at separator
  rcases separator with rfl | rfl | rfl | rfl | rfl | rfl | rfl <;> rfl

theorem withoutPunctuation_identifierChar
    {char : Char}
    (identifierChar : isIdentifierChar char = true) :
    withoutPunctuation (char :: rest) = char :: withoutPunctuation rest := by
  have kept : char ∉ ['(', '|', ')', ',', ';', '\n', '\t'] := by
    intro isPunctuation
    simp only [mem_cons, not_mem_nil, or_false] at isPunctuation
    rcases isPunctuation with rfl | rfl | rfl | rfl | rfl | rfl | rfl <;>
      exact absurd identifierChar (by decide)
  rw [withoutPunctuation, map_cons, if_neg kept]
  rfl

theorem not_blank_of_identifierChar
    {char : Char}
    (identifierChar : isIdentifierChar char = true) :
    isBlank char = false := by
  refine Bool.eq_false_iff.mpr fun blank => ?_
  simp only [isBlank, Bool.or_eq_true, decide_eq_true_eq] at blank
  rcases blank with ((((rfl | rfl) | rfl) | rfl) | rfl) | rfl <;>
    exact absurd identifierChar (by decide)

theorem words_blank : words (' ' :: text) = words text := by
  simpa [words] using @words_append_blank [] text

/-- A separator ends a word; it is no word itself. -/
theorem readInitial_separator
    {char : Char}
    (separator : isSeparator char = true)
    (tokens : List Token) :
    ∃ symbols,
      readInitial ⟨.initial, tokens⟩ char =
        ⟨.initial, tokens ++ symbols⟩ ∧
      tokenWords symbols = [] := by
  simp only [isSeparator, mem_cons, not_mem_nil, or_false,
    decide_eq_true_eq] at separator
  rcases separator with rfl | rfl | rfl | rfl | rfl | rfl | rfl
  · exact ⟨[], by rw [append_nil]; rfl, rfl⟩
  · exact ⟨[], by rw [append_nil]; rfl, rfl⟩
  · exact ⟨[], by rw [append_nil]; rfl, rfl⟩
  all_goals exact ⟨[.symbol _], rfl, rfl⟩

theorem not_identifierChar_of_separator
    {char : Char}
    (separator : isSeparator char = true) :
    isIdentifierChar char = false := by
  simp only [isSeparator, mem_cons, not_mem_nil, or_false,
    decide_eq_true_eq] at separator
  rcases separator with rfl | rfl | rfl | rfl | rfl | rfl | rfl <;> rfl

theorem readInitial_identifierChar
    {char : Char}
    (identifierChar : isIdentifierChar char = true)
    (tokens : List Token) :
    readInitial ⟨.initial, tokens⟩ char = ⟨.word [char], tokens⟩ ∨
      readInitial ⟨.initial, tokens⟩ char = ⟨.error, tokens⟩ := by
  have other : ∀ special, isIdentifierChar special = false → char ≠ special := by
    rintro special notIdentifierChar rfl
    rw [identifierChar] at notIdentifierChar
    exact absurd notIdentifierChar (by decide)
  have notPunctuation : isPunctuation char = false := by
    simp [isPunctuation, other _ (rfl : isIdentifierChar '{' = false),
      other _ (rfl : isIdentifierChar '}' = false),
      other _ (rfl : isIdentifierChar '(' = false),
      other _ (rfl : isIdentifierChar ')' = false),
      other _ (rfl : isIdentifierChar ',' = false),
      other _ (rfl : isIdentifierChar ';' = false)]
  unfold readInitial
  rw [if_neg, notPunctuation, if_neg Bool.false_ne_true, if_neg, if_neg]
  · split
    · exact .inl rfl
    · exact .inr rfl
  · exact other '/' rfl
  · exact not_or.mpr ⟨other '#' rfl, other '@' rfl⟩
  · exact not_or.mpr ⟨other ' ' rfl, not_or.mpr
      ⟨other '\t' rfl, other '\n' rfl⟩⟩

theorem isWord_append_char
    {char : Char}
    (isWord : ∀ other, other ∈ word → isBlank other = false)
    (identifierChar : isIdentifierChar char = true) :
    IsWord (word ++ [char]) := by
  refine ⟨by simp, fun other member => ?_⟩
  rcases mem_append.mp member with member | member
  · exact isWord other member
  · rw [mem_singleton.mp member]
    exact not_blank_of_identifierChar identifierChar

/-- The scanner and the cutting see the same words: outside of a word, and
behind the start of one. -/
theorem tokenWords_foldl_readChar
    (bare : ∀ char, char ∈ text →
      isIdentifierChar char = true ∨ isSeparator char = true) :
    ∀ read,
      (text.foldl readChar ⟨.initial, read⟩ = ⟨.initial, tokens⟩ →
        tokenWords tokens =
          tokenWords read ++ words (withoutPunctuation text)) ∧
      ∀ word, IsWord word →
        text.foldl readChar ⟨.word word, read⟩ = ⟨.initial, tokens⟩ →
          tokenWords tokens =
            tokenWords read ++ words (word ++ withoutPunctuation text) := by
  induction text with
  | nil =>
      refine fun read => ⟨fun done => ?_, fun word isWord done => ?_⟩
      · obtain ⟨-, rfl⟩ := mk.injEq .. ▸ done
        exact (append_nil _).symm
      · exact absurd (congrArg mode done) nofun
  | cons char rest hypothesis =>
      have ofRest := hypothesis fun other member =>
        bare other (mem_cons_of_mem char member)
      refine fun read => ⟨fun done => ?_, fun word isWord done => ?_⟩
      · rcases bare char mem_cons_self with identifierChar | separator
        · rcases readInitial_identifierChar identifierChar read with
            starts | fails
          · have startsWord := @isWord_append_char [] char
              (by simp) identifierChar
            rw [foldl_cons, readChar_initial, starts] at done
            rw [(ofRest read).2 [char] startsWord done,
              withoutPunctuation_identifierChar identifierChar,
              singleton_append]
          · rw [foldl_cons, readChar_initial, fails,
              foldl_readChar_error] at done
            exact absurd (congrArg mode done) nofun
        · obtain ⟨symbols, reads, noWords⟩ :=
            readInitial_separator separator read
          rw [foldl_cons, readChar_initial, reads] at done
          rw [(ofRest _).1 done, tokenWords_append, noWords, append_nil,
            withoutPunctuation_separator separator, words_blank]
      · rcases bare char mem_cons_self with identifierChar | separator
        · have longer := isWord_append_char isWord.2 identifierChar
          rw [foldl_cons, readChar_word, if_pos identifierChar] at done
          rw [(ofRest read).2 (word ++ [char]) longer done,
            withoutPunctuation_identifierChar identifierChar, append_assoc,
            singleton_append]
        · obtain ⟨symbols, reads, noWords⟩ :=
            readInitial_separator separator (read ++ [.word word])
          rw [foldl_cons, readChar_word,
            not_identifierChar_of_separator separator,
            if_neg Bool.false_ne_true, reads] at done
          rw [(ofRest _).1 done, withoutPunctuation_separator separator,
            words_append_blank, words_eq_singleton isWord]
          simp [noWords]

/-! ## The words of a declaration -/

variable {st : LexState}

theorem tokens_readInitial {char : Char} :
    st.tokens <+: (st.readInitial char).tokens := by
  unfold readInitial
  split
  · exact prefix_rfl
  split
  · exact prefix_append _ _
  repeat' split
  all_goals exact prefix_rfl

/-- Tokens that have been read stay. -/
theorem tokens_readChar {char : Char} :
    st.tokens <+: (st.readChar char).tokens := by
  unfold readChar
  split
  · exact tokens_readInitial
  · split
    · exact prefix_rfl
    · exact List.IsPrefix.trans (prefix_append _ _)
        (@tokens_readInitial ⟨.initial, _⟩ _)
  all_goals
    repeat' split
    all_goals exact prefix_rfl

theorem tokens_foldl_readChar :
    st.tokens <+: (text.foldl readChar st).tokens := by
  induction text generalizing st with
  | nil => exact prefix_rfl
  | cons char rest hypothesis => exact tokens_readChar.trans hypothesis

theorem Declaration.tokens_eq_word_cons :
    ∃ text rest, decl.tokens = .word text :: rest := by
  cases isStatic : decl.isStatic with
  | true => exact ⟨_, _, by rw [Declaration.tokens, isStatic, if_pos rfl]; rfl⟩
  | false =>
      cases type : decl.returnType <;>
        exact ⟨_, _, by
          rw [Declaration.tokens, isStatic, if_neg Bool.false_ne_true, type]
          rfl⟩

theorem trim_start
    {line rest : Text}
    {char : Char}
    (trimmed : trim line = char :: rest) :
    ¬ char ≤ ' ' := by
  have isPrefix : trim line <+: line.dropWhile (· ≤ ' ') :=
    rdropWhile_prefix _ _
  obtain ⟨more, same⟩ := isPrefix
  have notDropped := head?_dropWhile_not (· ≤ ' ') line
  rw [← same, trimmed] at notDropped
  simpa using notDropped

theorem scans_singleton :
    Scans [text] tokens ↔
      (text ++ ['\n']).foldl readChar ⟨.initial, []⟩ =
        ⟨.initial, tokens⟩ := by
  rw [Scans, readLines, flatMap_singleton]

variable {decl}

/-- Cutting the text gives the words of the declaration. -/
theorem IsTextOf.splitBlanks_eq
    (isText : IsTextOf decl text)
    (trimmed : ∀ char rest, text = char :: rest → ¬ char ≤ ' ') :
    splitBlanks (withoutPunctuation text) = tokenWords decl.tokens := by
  have scans := scans_singleton.mp isText.scans
  have bare : ∀ char, char ∈ text ++ ['\n'] →
      isIdentifierChar char = true ∨ isSeparator char = true := by
    intro char member
    rcases mem_append.mp member with member | member
    · refine (Bool.or_eq_true _ _ ▸ isText.bare char member).imp_right
        fun special => ?_
      simp only [mem_cons, not_mem_nil, or_false,
        decide_eq_true_eq] at special
      rcases special with rfl | rfl | rfl | rfl | rfl | rfl <;> rfl
    · rw [mem_singleton.mp member]
      exact .inr rfl
  have sameWords := (tokenWords_foldl_readChar bare []).1 scans
  have lineEnd : words (withoutPunctuation (text ++ ['\n'])) =
      words (withoutPunctuation text) := by
    rw [withoutPunctuation, map_append]
    exact words_append_blank.trans (append_nil _)
  rw [sameWords, tokenWords_nil, nil_append, lineEnd]
  cases text with
  | nil =>
      obtain ⟨word, rest, same⟩ := decl.tokens_eq_word_cons
      have noTokens : decl.tokens = [] := (congrArg tokens scans).symm
      exact absurd (same.symm.trans noTokens) (cons_ne_nil _ _)
  | cons first rest =>
      rcases bare first mem_cons_self with identifierChar | separator
      · rw [withoutPunctuation_identifierChar identifierChar, splitBlanks,
          not_blank_of_identifierChar identifierChar,
          if_neg Bool.false_ne_true]
      · obtain ⟨word, more, same⟩ := decl.tokens_eq_word_cons
        have firstTokens : (readChar ⟨.initial, []⟩ first).tokens <+:
            decl.tokens := by
          have isPrefix := @tokens_foldl_readChar (rest ++ ['\n'])
            (readChar ⟨.initial, []⟩ first)
          rwa [← foldl_cons, ← cons_append, scans] at isPrefix
        have notBlank := trimmed first rest rfl
        rw [same] at firstTokens
        simp only [isSeparator, mem_cons, not_mem_nil, or_false,
          decide_eq_true_eq] at separator
        rcases separator with rfl | rfl | rfl | rfl | rfl | rfl | rfl
        · exact absurd (by decide) notBlank
        · exact absurd (by decide) notBlank
        · exact absurd (by decide) notBlank
        all_goals
          obtain ⟨tail, isPrefix⟩ := firstTokens
          exact absurd (cons.inj isPrefix).1 (by simp)

end DistributedRdf.CBinding
