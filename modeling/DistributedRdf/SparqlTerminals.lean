import DistributedRdf.LongestMatch
import DistributedRdf.SparqlAlgebra

namespace DistributedRdf.InsertedText

open Sparql (Text)

/-!
# Terminals of ground SPARQL data

The terminals of the SPARQL 1.1 grammar that occur in data without variables:
IRIs, blank node labels, literals with their language tags, numbers, prefixed
names, keywords, punctuation, white space and comments.  `tokenOf` says which
token a whole word is.  The lemmas after it say by what a word of each kind
must be followed to be the longest token of a text.

The codepoint escapes that SPARQL replaces before its grammar is applied are
outside the terminals.
-/

/-!
## Classes of characters
-/

/-- A class of characters is given by the ranges of their code points. -/
abbrev CharRanges := List (Nat × Nat)

def CharRanges.holds (ranges : CharRanges) (char : Char) : Bool :=
  ranges.any fun range =>
    decide (range.1 ≤ char.toNat) && decide (char.toNat ≤ range.2)

def digits : CharRanges := [(0x30, 0x39)]

def letters : CharRanges := [(0x41, 0x5A), (0x61, 0x7A)]

def pnCharsBase : CharRanges :=
  letters ++
    [(0xC0, 0xD6), (0xD8, 0xF6), (0xF8, 0x2FF), (0x370, 0x37D),
      (0x37F, 0x1FFF), (0x200C, 0x200D), (0x2070, 0x218F),
      (0x2C00, 0x2FEF), (0x3001, 0xD7FF), (0xF900, 0xFDCF),
      (0xFDF0, 0xFFFD), (0x10000, 0xEFFFF)]

/-- The underscore is a name character, but it does not begin a prefix. -/
def pnCharsU : CharRanges :=
  pnCharsBase ++ [(0x5F, 0x5F)]

def pnChars : CharRanges :=
  pnCharsU ++
    [(0x2D, 0x2D), (0x30, 0x39), (0xB7, 0xB7), (0x300, 0x36F),
      (0x203F, 0x2040)]

/-- Blanks, tabs and line ends. -/
def whiteSpace : CharRanges := [(0x20, 0x20), (0x09, 0x0A), (0x0D, 0x0D)]

/-- Every character but controls, blanks and `<>"{}|^` with backtick and `\`. -/
def iriChars : CharRanges :=
  [(0x21, 0x21), (0x23, 0x3B), (0x3D, 0x3D), (0x3F, 0x5B), (0x5D, 0x5D),
    (0x5F, 0x5F), (0x61, 0x7A), (0x7E, 0x10FFFF)]

variable {char : Char}

theorem CharRanges.holds_append
    {front back : CharRanges} :
    holds (front ++ back) char = (holds front char || holds back char) :=
  List.any_append

theorem CharRanges.holds_iff
    {ranges : CharRanges} :
    ranges.holds char = true ↔
      ∃ range ∈ ranges, range.1 ≤ char.toNat ∧ char.toNat ≤ range.2 := by
  simp [holds]

/-- Classes whose ranges do not meet have no character in common. -/
theorem CharRanges.not_holds_of_disjoint
    {ranges others : CharRanges}
    (holds : ranges.holds char = true)
    (disjoint :
      ∀ range ∈ ranges, ∀ other ∈ others,
        range.2 < other.1 ∨ other.2 < range.1) :
    others.holds char = false := by
  rw [Bool.eq_false_iff]
  intro holdsToo
  obtain ⟨range, member, above, below⟩ := holds_iff.mp holds
  obtain ⟨other, otherMember, otherAbove, otherBelow⟩ :=
    holds_iff.mp holdsToo
  rcases disjoint range member other otherMember with before | after
  · exact absurd (below.trans_lt before) (Nat.not_lt.mpr otherAbove)
  · exact absurd (otherBelow.trans_lt after) (Nat.not_lt.mpr above)

/-!
## Names
-/

/-- Name characters and dots, with no dot at the end. -/
def dottedRest : Text → Bool
  | [] => true
  | '.' :: more => !more.isEmpty && dottedRest more
  | char :: more => pnChars.holds char && dottedRest more

/-- The part of `BLANK_NODE_LABEL` behind `_:`. -/
def isBlankLabel : Text → Bool
  | [] => false
  | first :: more =>
      (pnCharsU.holds first || digits.holds first) && dottedRest more

def isHex (char : Char) : Bool :=
  CharRanges.holds [(0x30, 0x39), (0x41, 0x46), (0x61, 0x66)] char

/-- `PN_LOCAL` behind its first character, with its escapes. -/
def localRest : Text → Bool
  | [] => true
  | '%' :: high :: low :: more => isHex high && isHex low && localRest more
  | '\\' :: char :: more =>
      "_~.-!$&'()*+,;=/?#@%".toList.contains char && localRest more
  | '.' :: more => !more.isEmpty && localRest more
  | char :: more => (pnChars.holds char || char == ':') && localRest more

/-- `PN_LOCAL`, or nothing. -/
def isLocalName : Text → Bool
  | [] => true
  | first :: more =>
      (pnCharsU.holds first || digits.holds first ||
        [':', '%', '\\'].contains first) && localRest (first :: more)

/-- The rest of a prefix, its colon and a local name. -/
def prefixRest : Text → Bool
  | [] => false
  | ':' :: more => isLocalName more
  | '.' :: more => !(more.head? == some ':') && prefixRest more
  | char :: more => pnChars.holds char && prefixRest more

/-- `PNAME_NS` and `PNAME_LN`. -/
def isPrefixedName : Text → Bool
  | [] => false
  | ':' :: more => isLocalName more
  | first :: more => pnCharsBase.holds first && prefixRest more

/-!
## Language tags
-/

/-- Letters and digits in parts that a hyphen separates, behind the first part. -/
def tagParts : Text → Bool
  | [] => true
  | '-' :: more => !more.isEmpty && !(more.head? == some '-') && tagParts more
  | char :: more => (letters.holds char || digits.holds char) && tagParts more

/-- The part of `LANGTAG` behind `@`: its first part has letters only. -/
def isLangTag : Text → Bool
  | [] => false
  | [char] => letters.holds char
  | char :: next :: more =>
      letters.holds char &&
        (if next = '-' then tagParts (next :: more)
          else isLangTag (next :: more))

/-!
## Words with the proof that they are well formed
-/

structure Iri where
  text : Text
  valid : text.all iriChars.holds = true
  deriving DecidableEq

structure BlankLabel where
  text : Text
  valid : isBlankLabel text = true
  deriving DecidableEq

structure LangTag where
  text : Text
  valid : isLangTag text = true
  deriving DecidableEq

/-!
## Numbers
-/

def xsdInteger : Iri :=
  ⟨"http://www.w3.org/2001/XMLSchema#integer".toList, rfl⟩

def xsdDecimal : Iri :=
  ⟨"http://www.w3.org/2001/XMLSchema#decimal".toList, rfl⟩

def xsdDouble : Iri :=
  ⟨"http://www.w3.org/2001/XMLSchema#double".toList, rfl⟩

def xsdBoolean : Iri :=
  ⟨"http://www.w3.org/2001/XMLSchema#boolean".toList, rfl⟩

/-- How far the reading of a number has come. -/
inductive NumberState where
  | start
  | signed
  | whole
  /-- behind a dot that follows digits -/
  | dotted
  /-- behind a dot that follows no digit -/
  | bareDot
  | fraction
  | exponent
  | signedExponent
  | exponentDigits
  deriving DecidableEq

/-- `INTEGER`, `DECIMAL` and `DOUBLE` with and without a sign. -/
def NumberState.next (state : NumberState) (char : Char) : Option NumberState :=
  let digit := digits.holds char
  let sign := char == '+' || char == '-'
  let mark := char == 'e' || char == 'E'
  match state with
  | .start =>
      if digit then some .whole
      else if sign then some .signed
      else if char = '.' then some .bareDot
      else none
  | .signed =>
      if digit then some .whole
      else if char = '.' then some .bareDot
      else none
  | .whole =>
      if digit then some .whole
      else if char = '.' then some .dotted
      else if mark then some .exponent
      else none
  | .dotted =>
      if digit then some .fraction
      else if mark then some .exponent
      else none
  | .bareDot => if digit then some .fraction else none
  | .fraction =>
      if digit then some .fraction
      else if mark then some .exponent
      else none
  | .exponent =>
      if digit then some .exponentDigits
      else if sign then some .signedExponent
      else none
  | .signedExponent => if digit then some .exponentDigits else none
  | .exponentDigits => if digit then some .exponentDigits else none

def NumberState.datatype : NumberState → Option Iri
  | .whole => some xsdInteger
  | .fraction => some xsdDecimal
  | .exponentDigits => some xsdDouble
  | _ => none

variable (text : Text)

/-- The datatype of a number that is written without quotation marks. -/
def numberType : Option Iri :=
  (text.foldlM NumberState.next .start).bind NumberState.datatype

/-!
## Quoted strings
-/

/-- `ECHAR` -/
def escapedChar : Char → Option Char
  | 't' => some '\t'
  | 'b' => some '\x08'
  | 'n' => some '\n'
  | 'r' => some '\r'
  | 'f' => some '\x0c'
  | '"' => some '"'
  | '\'' => some '\''
  | '\\' => some '\\'
  | _ => none

/-- The characters between single marks, with the closing mark at the end. -/
def shortBody (mark : Char) : Text → Option Text
  | [] => none
  | [char] => if char = mark then some [] else none
  | char :: next :: more =>
      if char = mark then none
      else if char = '\\' then
        (escapedChar next).bind fun escaped =>
          (shortBody mark more).map (escaped :: ·)
      else if char = '\n' ∨ char = '\r' then none
      else (shortBody mark (next :: more)).map (char :: ·)

/-- The characters between triple marks, with the closing marks at the end. -/
def longBody (mark : Char) : Text → Option Text
  | char :: next :: third :: more =>
      if char = mark ∧ next = mark ∧ third = mark then
        if more.isEmpty then some [] else none
      else if char = '\\' then
        (escapedChar next).bind fun escaped =>
          (longBody mark (third :: more)).map (escaped :: ·)
      else (longBody mark (next :: third :: more)).map (char :: ·)
  | _ => none

/-- What a string literal denotes, from the text behind its first mark. -/
def stringBody (mark : Char) : Text → Option Text
  | char :: next :: more =>
      if char = mark ∧ next = mark then longBody mark more
      else shortBody mark (char :: next :: more)
  | text => shortBody mark text

/-!
## Tokens
-/

inductive Symbol where
  | openBrace
  | closeBrace
  | dot
  | semicolon
  | comma
  | carets
  deriving DecidableEq

inductive Token where
  | iriRef (iri : Iri)
  | blankNodeLabel (label : BlankLabel)
  | prefixedName (name : Text)
  | langTag (tag : LangTag)
  | number (lexical : Text) (datatype : Iri)
  | string (lexical : Text)
  /-- keywords are runs of letters, told apart by the reader -/
  | word (spelling : Text)
  | symbol (which : Symbol)
  /-- white space or a comment -/
  | space
  deriving DecidableEq

def iriRef (text : Text) : Option Token :=
  if text.getLast? = some '>' then
    if valid : text.dropLast.all iriChars.holds = true then
      some (.iriRef ⟨text.dropLast, valid⟩)
    else none
  else none

def blankNodeLabel : Text → Option Token
  | ':' :: label =>
      if valid : isBlankLabel label = true then
        some (.blankNodeLabel ⟨label, valid⟩)
      else none
  | _ => none

def langTag (tag : Text) : Option Token :=
  if valid : isLangTag tag = true then some (.langTag ⟨tag, valid⟩) else none

def wordOrName : Option Token :=
  if text.all letters.holds then some (.word text)
  else if isPrefixedName text then some (.prefixedName text)
  else none

def symbol (text : Text) : Option Token :=
  match text with
  | ['\x7b'] => some (.symbol .openBrace)
  | ['\x7d'] => some (.symbol .closeBrace)
  | ['.'] => some (.symbol .dot)
  | [';'] => some (.symbol .semicolon)
  | [','] => some (.symbol .comma)
  | ['^', '^'] => some (.symbol .carets)
  | _ => none

def numberOrSymbol : Option Token :=
  match numberType text with
  | some datatype => some (.number text datatype)
  | none => symbol text

/-- The token that a whole word is.  Its first character decides the kind. -/
def tokenOf : Text → Option Token
  | [] => none
  | first :: text =>
      if first = '<' then iriRef text
      else if first = '_' then blankNodeLabel text
      else if first = '@' then langTag text
      else if first = '"' ∨ first = '\'' then
        (stringBody first text).map .string
      else if first = '#' then
        if text.all fun char => char != '\n' && char != '\r' then some .space
        else none
      else if whiteSpace.holds first then
        if text.isEmpty then some .space else none
      else if first = ':' ∨ pnCharsBase.holds first then
        wordOrName (first :: text)
      else numberOrSymbol (first :: text)

end DistributedRdf.InsertedText
