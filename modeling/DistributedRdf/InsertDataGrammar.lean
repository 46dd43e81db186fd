import DistributedRdf.TokenEnds

namespace DistributedRdf.InsertedText

open List

open Sparql (Text)

/-!
# Reading an insertion of ground data

RDF terms and triples, the texts that write a term down, and a reader for the
`INSERT DATA` operation of the SPARQL 1.1 grammar with triples, predicate lists
and object lists.  Named graphs, collections and bracketed blank nodes each
open with a token that the inserted texts do not contain; they are left out.
A prefixed name is never read, because the texts declare no prefix.
-/

/-!
## Terms and triples
-/

inductive Node where
  | iri (iri : Iri)
  | blank (label : BlankLabel)
  deriving DecidableEq

def Node.isBlank : Node → Bool
  | .iri _ => false
  | .blank _ => true

inductive LiteralKind where
  | plain
  | tagged (tag : LangTag)
  | typed (datatype : Iri)
  deriving DecidableEq

inductive Term where
  | node (node : Node)
  | literal (lexical : Text) (kind : LiteralKind)
  deriving DecidableEq

structure Triple where
  subject : Node
  predicate : Iri
  object : Term
  deriving DecidableEq

/--
The texts of a term without prefixes.  A literal is quoted in any of the four
ways, or it is a number or a boolean that stands for itself.
-/
inductive WrittenAs : Term → Text → Prop
  | iri (iri : Iri) :
      WrittenAs (.node (.iri iri)) ('<' :: (iri.text ++ ['>']))
  | blank (label : BlankLabel) :
      WrittenAs (.node (.blank label)) ('_' :: ':' :: label.text)
  | plain
      (mark : Char)
      (body lexical : Text)
      (isMark : mark = '"' ∨ mark = '\'')
      (reads : stringBody mark body = some lexical) :
      WrittenAs (.literal lexical .plain) (mark :: body)
  | tagged
      (mark : Char)
      (body lexical : Text)
      (tag : LangTag)
      (isMark : mark = '"' ∨ mark = '\'')
      (reads : stringBody mark body = some lexical) :
      WrittenAs (.literal lexical (.tagged tag))
        (mark :: body ++ '@' :: tag.text)
  | typed
      (mark : Char)
      (body lexical : Text)
      (datatype : Iri)
      (isMark : mark = '"' ∨ mark = '\'')
      (reads : stringBody mark body = some lexical) :
      WrittenAs (.literal lexical (.typed datatype))
        (mark :: body ++ '^' :: '^' :: '<' :: (datatype.text ++ ['>']))
  | number
      (text : Text)
      (datatype : Iri)
      (isNumber : numberType text = some datatype) :
      WrittenAs (.literal text (.typed datatype)) text
  | boolean
      (text : Text)
      (isBoolean : text = "true".toList ∨ text = "false".toList) :
      WrittenAs (.literal text (.typed xsdBoolean)) text

/-!
## The reader
-/

/-- What the reader of an insertion takes next. -/
inductive Expecting where
  | insertWord
  | dataWord
  | openBrace
  | subject
  | verb (subject : Node)
  | object (subject : Node) (predicate : Iri)
  | literalEnd (subject : Node) (predicate : Iri) (lexical : Text)
  | datatype (subject : Node) (predicate : Iri) (lexical : Text)
  | objectEnd (subject : Node) (predicate : Iri)
  | predicateOrEnd (subject : Node)
  | nothing
  deriving DecidableEq

structure Reading where
  triples : List Triple
  expecting : Expecting
  deriving DecidableEq

/-- Keywords are matched without regard to case. -/
def isKeyword (keyword spelling : Text) : Bool :=
  spelling.map Char.toUpper == keyword

def rdfType : Iri :=
  ⟨"http://www.w3.org/1999/02/22-rdf-syntax-ns#type".toList, rfl⟩

namespace Reading

def start : Reading where
  triples := []
  expecting := .insertWord

variable (reading : Reading)

def expect (expecting : Expecting) : Reading :=
  { reading with expecting := expecting }

variable
  (subject : Node)
  (predicate : Iri)

def add
    (object : Term) :
    Reading where
  triples := reading.triples ++ [⟨subject, predicate, object⟩]
  expecting := .objectEnd subject predicate

/-- The keyword `a` is the one keyword with a case of its own. -/
def takeVerb :
    Token → Option Reading
  | .iriRef iri => some (reading.expect (.object subject iri))
  | .word ['a'] => some (reading.expect (.object subject rdfType))
  | _ => none

def takeObject :
    Token → Option Reading
  | .iriRef iri => some (reading.add subject predicate (.node (.iri iri)))
  | .blankNodeLabel label =>
      some (reading.add subject predicate (.node (.blank label)))
  | .string lexical =>
      some (reading.expect (.literalEnd subject predicate lexical))
  | .number lexical datatype =>
      some (reading.add subject predicate
        (.literal lexical (.typed datatype)))
  | .word spelling =>
      if isKeyword "TRUE".toList spelling then
        some (reading.add subject predicate
          (.literal "true".toList (.typed xsdBoolean)))
      else if isKeyword "FALSE".toList spelling then
        some (reading.add subject predicate
          (.literal "false".toList (.typed xsdBoolean)))
      else none
  | _ => none

def takeObjectEnd :
    Token → Option Reading
  | .symbol .dot => some (reading.expect .subject)
  | .symbol .semicolon => some (reading.expect (.predicateOrEnd subject))
  | .symbol .comma => some (reading.expect (.object subject predicate))
  | .symbol .closeBrace => some (reading.expect .nothing)
  | _ => none

/-- One token of an insertion.  White space may stand between any two. -/
def step (token : Token) : Option Reading :=
  if token = .space then some reading
  else
    match reading.expecting, token with
    | .insertWord, .word spelling =>
        if isKeyword "INSERT".toList spelling then
          some (reading.expect .dataWord)
        else none
    | .dataWord, .word spelling =>
        if isKeyword "DATA".toList spelling then
          some (reading.expect .openBrace)
        else none
    | .openBrace, .symbol .openBrace => some (reading.expect .subject)
    | .subject, .iriRef iri => some (reading.expect (.verb (.iri iri)))
    | .subject, .blankNodeLabel label =>
        some (reading.expect (.verb (.blank label)))
    | .subject, .symbol .closeBrace => some (reading.expect .nothing)
    | .verb subject, token => reading.takeVerb subject token
    | .object subject predicate, token =>
        reading.takeObject subject predicate token
    | .literalEnd subject predicate lexical, .langTag tag =>
        some (reading.add subject predicate (.literal lexical (.tagged tag)))
    | .literalEnd subject predicate lexical, .symbol .carets =>
        some (reading.expect (.datatype subject predicate lexical))
    | .literalEnd subject predicate lexical, token =>
        (reading.add subject predicate (.literal lexical .plain)).takeObjectEnd
          subject predicate token
    | .datatype subject predicate lexical, .iriRef datatype =>
        some (reading.add subject predicate
          (.literal lexical (.typed datatype)))
    | .objectEnd subject predicate, token =>
        reading.takeObjectEnd subject predicate token
    | .predicateOrEnd _, .symbol .dot => some (reading.expect .subject)
    | .predicateOrEnd subject, .symbol .semicolon =>
        some (reading.expect (.predicateOrEnd subject))
    | .predicateOrEnd _, .symbol .closeBrace => some (reading.expect .nothing)
    | .predicateOrEnd subject, token => reading.takeVerb subject token
    | _, _ => none

/-- Read what is left of an insertion. -/
def through (text : Text) : Option Reading :=
  readText tokenOf step reading text

end Reading

/-- The triples of an `INSERT DATA` operation. -/
def parseInsertData (text : Text) : Option (List Triple) :=
  (Reading.start.through text).bind fun reading =>
    if reading.expecting = .nothing then some reading.triples else none

/-!
## Reading written terms
-/

/-- The first characters tell an IRI and a blank node apart. -/
theorem WrittenAs.begins
    {node : Node}
    {text : Text}
    (written : WrittenAs (.node node) text) :
    (node.isBlank = false ∧ ∃ rest, text = '<' :: rest) ∨
      (node.isBlank = true ∧ ∃ rest, text = '_' :: ':' :: rest) := by
  cases written with
  | iri iri => exact Or.inl ⟨rfl, _, rfl⟩
  | blank label => exact Or.inr ⟨rfl, _, rfl⟩

/-- The characters with which a triple or the end of the data begins. -/
def BeginsTriple (first : Char) : Prop :=
  first = '<' ∨ first = '_' ∨ first = '\x7d'

/-- A dot and an underscore behind the text of the term belong to its token. -/
def openEnded : Term → Text → Bool
  | .node (.iri _), _ => false
  | .node (.blank _), _ => true
  | .literal _ _, text => text == "true".toList || text == "false".toList

namespace Reading

variable
  {triples : List Triple}
  {subject : Node}
  {predicate : Iri}
  {object : Term}
  {text word rest : Text}
  {first : Char}
  {token : Token}

theorem through_token
    {reading : Reading}
    (longest : LongestToken tokenOf word rest token) :
    reading.through (word ++ rest) =
      (reading.step token).bind (through · rest) :=
  readText_of_longest longest

theorem through_space (reading : Reading) :
    reading.through (' ' :: rest) = reading.through rest :=
  through_token (longest_space rest)

theorem through_dot (begins : BeginsTriple first) :
    (Reading.mk triples (.objectEnd subject predicate)).through
        ('.' :: first :: rest) =
      (Reading.mk triples .subject).through (first :: rest) :=
  through_token (longest_dot begins rest)

theorem through_subject
    (written : WrittenAs (.node subject) text) :
    (Reading.mk triples .subject).through (text ++ ' ' :: rest) =
      (Reading.mk triples (.verb subject)).through rest := by
  cases written with
  | iri iri =>
      exact (through_token (longest_iriRef iri _)).trans (through_space _)
  | blank label =>
      have ends := endsName_blank rest
      have longest :=
        longest_blankNodeLabel label
          fun more nonempty isPrefix => (ends more nonempty isPrefix).1
      exact (through_token longest).trans (through_space _)

theorem through_verb
    (written : WrittenAs (.node (.iri predicate)) text) :
    (Reading.mk triples (.verb subject)).through (text ++ ' ' :: rest) =
      (Reading.mk triples (.object subject predicate)).through rest := by
  cases written with
  | iri _ =>
      exact (through_token (longest_iriRef predicate _)).trans
        (through_space _)

/-- A quoted string is read, and what it is the lexical form of is left open. -/
theorem through_string
    {mark : Char}
    {body lexical : Text}
    (isMark : mark = '"' ∨ mark = '\'')
    (reads : stringBody mark body = some lexical)
    (noMark : first = '.' ∨ first = '@' ∨ first = '^') :
    (Reading.mk triples (.object subject predicate)).through
        (mark :: (body ++ first :: rest)) =
      (Reading.mk triples (.literalEnd subject predicate lexical)).through
        (first :: rest) := by
  have differs : first ≠ mark := by
    rcases isMark with rfl | rfl <;> rcases noMark with rfl | rfl | rfl <;>
      decide
  exact through_token (longest_string isMark reads differs rest)

theorem through_object
    (written : WrittenAs object text)
    (begins : BeginsTriple first)
    (apart : openEnded object text = true → first ≠ '_') :
    (Reading.mk triples (.object subject predicate)).through
        (text ++ '.' :: first :: rest) =
      (Reading.mk (triples ++ [⟨subject, predicate, object⟩])
        .subject).through (first :: rest) := by
  have endsHere (isOpen : openEnded object text = true) :
      EndsName ('.' :: first :: rest) := by
    rcases begins with isIri | isBlank | isEnd
    · exact endsName_dot (Or.inl isIri) rest
    · exact absurd isBlank (apart isOpen)
    · exact endsName_dot (Or.inr isEnd) rest
  cases written with
  | iri iri =>
      rw [← through_dot begins]
      exact through_token (longest_iriRef iri _)
  | blank label =>
      rw [← through_dot begins]
      exact through_token (longest_blankNodeLabel label
        fun more nonempty isPrefix => (endsHere rfl more nonempty isPrefix).1)
  | plain mark body lexical isMark reads =>
      rw [cons_append, through_string isMark reads (Or.inl rfl)]
      exact through_token (longest_dot begins rest)
  | tagged mark body lexical tag isMark reads =>
      rw [← through_dot begins, append_assoc, cons_append,
        cons_append,
        through_string isMark reads (Or.inr (Or.inl rfl))]
      exact through_token (longest_langTag tag _)
  | typed mark body lexical datatype isMark reads =>
      rw [← through_dot begins, append_assoc, cons_append,
        cons_append,
        through_string isMark reads (Or.inr (Or.inr rfl))]
      refine (through_token (longest_carets _)).trans ?_
      exact through_token (longest_iriRef datatype _)
  | number text datatype isNumber =>
      rw [← through_dot begins]
      exact through_token (longest_number isNumber begins rest)
  | boolean text isBoolean =>
      rw [← through_dot begins]
      rcases isBoolean with rfl | rfl
      · exact through_token (longest_word rfl (endsHere rfl))
      · exact through_token (longest_word rfl (endsHere rfl))

/-- A name that is not a word of letters is a prefixed name. -/
theorem wordOrName_eq
    (noWord : text.all letters.holds = false)
    (recognised : wordOrName text = some token) :
    token = .prefixedName text := by
  rw [wordOrName, if_neg (Bool.eq_false_iff.mp noWord)] at recognised
  split at recognised
  · exact (Option.some.inj recognised).symm
  · exact absurd recognised (Option.some_ne_none token).symm

/-- Nothing that begins with a colon can follow a complete object. -/
theorem through_colon :
    (Reading.mk triples (.objectEnd subject predicate)).through
      (':' :: rest) = none := by
  apply readText_eq_none (cons_ne_nil _ _)
  intro word more token textIs longest
  cases word with
  | nil => exact absurd rfl longest.nonempty
  | cons char others =>
      obtain ⟨rfl, -⟩ := cons.inj textIs
      have recognised := longest.recognised
      rw [tokenOf_colon] at recognised
      rw [wordOrName_eq rfl recognised]
      rfl

theorem through_openBoolean
    (isBoolean : text = "true".toList ∨ text = "false".toList) :
    (Reading.mk triples (.object subject predicate)).through
      (text ++ '.' :: '_' :: ':' :: rest) = none := by
  have isName :
      tokenOf (text ++ ['.', '_', ':']) =
        some (.prefixedName (text ++ ['.', '_', ':'])) := by
    rcases isBoolean with rfl | rfl <;> rfl
  have isPrefix :
      text ++ ['.', '_', ':'] <+: text ++ '.' :: '_' :: ':' :: rest :=
    ⟨rest, by simp⟩
  have nonempty : text ++ '.' :: '_' :: ':' :: rest ≠ [] := by
    simp
  apply readText_eq_none nonempty
  intro word more token textIs longest
  rw [textIs] at isPrefix
  obtain ⟨others, rfl⟩ := longest.length_le isPrefix isName
  have recognised := longest.recognised
  have named : token = .prefixedName (text ++ ['.', '_', ':'] ++ others) := by
    rcases isBoolean with rfl | rfl
    · exact wordOrName_eq rfl recognised
    · exact wordOrName_eq rfl recognised
  rw [named]
  rfl

/-- An object that is left open takes the dot behind it and the underscore of
the next subject with it. -/
theorem through_openEnded
    (written : WrittenAs object text)
    (isOpen : openEnded object text = true) :
    (Reading.mk triples (.object subject predicate)).through
      (text ++ '.' :: '_' :: ':' :: rest) = none := by
  cases object with
  | literal lexical kind =>
      have isBoolean : text = "true".toList ∨ text = "false".toList := by
        simpa only [openEnded, Bool.or_eq_true, beq_iff_eq] using isOpen
      exact through_openBoolean isBoolean
  | node node =>
      cases written with
      | iri iri => exact absurd isOpen Bool.false_ne_true
      | blank label =>
          let longer : BlankLabel :=
            ⟨label.text ++ ['.', '_'], isBlankLabel_append label _⟩
          have longest :
              LongestToken tokenOf ('_' :: ':' :: longer.text) (':' :: rest)
                (.blankNodeLabel longer) := by
            apply longest_blankNodeLabel
            intro more nonempty isPrefix
            rcases prefix_cons_iff.mp isPrefix with
              empty | ⟨others, rfl, -⟩
            · exact absurd empty nonempty
            · rfl
          have whole :
              '_' :: ':' :: label.text ++ '.' :: '_' :: ':' :: rest =
                '_' :: ':' :: longer.text ++ ':' :: rest := by
            simp [longer]
          rw [whole]
          exact (through_token longest).trans through_colon

end Reading

end DistributedRdf.InsertedText
