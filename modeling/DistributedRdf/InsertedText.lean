import DistributedRdf.InsertDataGrammar
import Mathlib.Data.List.Chain

namespace DistributedRdf.InsertedText

open Reading List Option

open Sparql (Text)

/-!
# The inserted text denotes the graph

`insert_to_local` writes the triples of the merged graph one behind the other
into an `INSERT DATA` operation.
-/

/-- `"%s %s %s." % (s.n3(), p.n3(), o.n3())` -/
def tripleText (n3 : Term → Text) (triple : Triple) : Text :=
  n3 (.node triple.subject) ++ " ".toList ++
    n3 (.node (.iri triple.predicate)) ++ " ".toList ++
      n3 triple.object ++ ".".toList

/-- The text of the insertion.  A graph is the list of its triples in the order
in which they are iterated. -/
def insertToLocal (n3 : Term → Text) (inputData : List Triple) : Text :=
  inputData.foldl (fun query triple => query ++ tripleText n3 triple)
    "INSERT DATA \x7b".toList ++ "\x7d".toList

/-- The text is read to exactly the triples of the graph. -/
def DenotesGraph (n3 : Term → Text) (graph : List Triple) : Prop :=
  ∃ triples, parseInsertData (insertToLocal n3 graph) = some triples ∧
    ∀ triple, triple ∈ triples ↔ triple ∈ graph

/--
The dot behind the first triple stays a token of its own: it is not taken into
the object's token together with the blank node label of the next subject.
-/
def KeptApart (n3 : Term → Text) (triple next : Triple) : Prop :=
  openEnded triple.object (n3 triple.object) = true →
    next.subject.isBlank = false
  deriving Decidable

/-!
## The text of the triples
-/

def triplesText (n3 : Term → Text) (graph : List Triple) : Text :=
  graph.flatMap (tripleText n3) ++ "\x7d".toList

theorem insertToLocal_eq (n3 : Term → Text) (graph : List Triple) :
    insertToLocal n3 graph =
      "INSERT DATA \x7b".toList ++ triplesText n3 graph := by
  have folded (front : Text) :
      graph.foldl (fun query triple => query ++ tripleText n3 triple) front =
        front ++ graph.flatMap (tripleText n3) := by
    induction graph generalizing front with
    | nil => simp
    | cons triple others hypothesis =>
        rw [foldl_cons, hypothesis]
        simp
  rw [insertToLocal, folded, triplesText, append_assoc]

section Reads

variable
  {n3 : Term → Text}
  {triple : Triple}
  {graph triples : List Triple}

theorem triplesText_cons :
    triplesText n3 (triple :: graph) =
      n3 (.node triple.subject) ++
        ' ' :: (n3 (.node (.iri triple.predicate)) ++
          ' ' :: (n3 triple.object ++ '.' :: triplesText n3 graph)) := by
  simp [triplesText, tripleText]

section

variable (written : ∀ term, WrittenAs term (n3 term))

include written

/-- Only a triple with a blank subject begins with an underscore. -/
theorem triplesText_begins
    (graph : List Triple) :
    ∃ first rest, triplesText n3 graph = first :: rest ∧
      BeginsTriple first ∧
        (first = '_' → ∃ next ∈ graph.head?, next.subject.isBlank = true) := by
  cases graph with
  | nil =>
      exact ⟨'\x7d', [], rfl, Or.inr (Or.inr rfl),
        fun same => absurd same (by decide)⟩
  | cons next others =>
      rw [triplesText_cons]
      rcases (written (.node next.subject)).begins with
        ⟨-, rest, textIs⟩ | ⟨isBlank, rest, textIs⟩
      · refine ⟨'<', _, by rw [textIs, cons_append], Or.inl rfl, ?_⟩
        exact fun same => absurd same (by decide)
      · refine ⟨'_', _, by rw [textIs, cons_append],
          Or.inr (Or.inl rfl), ?_⟩
        exact fun _ => ⟨next, rfl, isBlank⟩

/-- The subject and the predicate of a triple are always read. -/
theorem through_cons :
    (mk triples .subject).through (triplesText n3 (triple :: graph)) =
      (mk triples (.object triple.subject triple.predicate)).through
        (n3 triple.object ++ '.' :: triplesText n3 graph) := by
  rw [triplesText_cons, through_subject (written _),
    through_verb (written _)]

/-- A triple that is kept apart from the next one is read. -/
theorem through_kept
    (kept : ∀ next ∈ graph.head?, KeptApart n3 triple next) :
    (mk triples .subject).through (triplesText n3 (triple :: graph)) =
      (mk (triples ++ [triple]) .subject).through
        (triplesText n3 graph) := by
  obtain ⟨first, rest, textIs, begins, blankNext⟩ :=
    triplesText_begins written graph
  have apart :
      openEnded triple.object (n3 triple.object) = true → first ≠ '_' := by
    intro isOpen isBlank
    obtain ⟨next, isHead, blankSubject⟩ := blankNext isBlank
    rw [kept next isHead isOpen] at blankSubject
    exact Bool.false_ne_true blankSubject
  rw [through_cons written, textIs]
  exact through_object (written _) begins apart

/-- The reader refuses a triple that is not kept apart from the next one. -/
theorem through_joined
    {next : Triple}
    (joined : ¬ KeptApart n3 triple next) :
    (mk triples .subject).through
      (triplesText n3 (triple :: next :: graph)) = none := by
  rw [KeptApart, Classical.not_imp, Bool.not_eq_false] at joined
  obtain ⟨isOpen, isBlank⟩ := joined
  rcases (written (.node next.subject)).begins with
    ⟨notBlank, -⟩ | ⟨-, rest, textIs⟩
  · rw [isBlank] at notBlank
    exact absurd notBlank.symm Bool.false_ne_true
  · rw [through_cons written, triplesText_cons, textIs]
    exact through_openEnded (written _) isOpen

/-- By induction on the graph: the triples read so far are the ones in front. -/
theorem through_triples
    (kept : graph.IsChain (KeptApart n3)) :
    (mk triples .subject).through (triplesText n3 graph) =
      some (mk (triples ++ graph) .nothing) := by
  induction graph generalizing triples with
  | nil =>
      rw [append_nil]
      exact through_token (longest_closeBrace [])
  | cons triple others hypothesis =>
      obtain ⟨apart, keptLater⟩ := isChain_cons.mp kept
      rw [through_kept written apart, hypothesis keptLater,
        append_assoc, singleton_append]

/-- By induction on the graph up to the first pair that is not kept apart. -/
theorem through_triples_eq_none
    (notKept : ¬ graph.IsChain (KeptApart n3)) :
    (mk triples .subject).through (triplesText n3 graph) = none := by
  induction graph generalizing triples with
  | nil => exact absurd List.IsChain.nil notKept
  | cons triple others hypothesis =>
      by_cases apart : ∀ next ∈ others.head?, KeptApart n3 triple next
      · rw [through_kept written apart]
        apply hypothesis
        exact fun keptLater =>
          notKept (isChain_cons.mpr ⟨apart, keptLater⟩)
      · cases others with
        | nil => exact absurd (by simp) apart
        | cons next others =>
            apply through_joined written
            exact fun kept => apart (by simpa using kept)

end

/-- The keywords and the brace are read, whatever data follow. -/
theorem through_header (rest : Text) :
    start.through ("INSERT DATA \x7b".toList ++ rest) =
      (mk [] .subject).through rest := by
  have insertWord :
      LongestToken tokenOf "INSERT".toList
        (' ' :: ("DATA".toList ++ ' ' :: '\x7b' :: rest))
        (.word "INSERT".toList) :=
    longest_word rfl (endsName_blank _)
  have dataWord :
      LongestToken tokenOf "DATA".toList (' ' :: '\x7b' :: rest)
        (.word "DATA".toList) :=
    longest_word rfl (endsName_blank _)
  calc
    start.through
        ("INSERT".toList ++ ' ' :: ("DATA".toList ++ ' ' :: '\x7b' :: rest))
      = (mk [] .dataWord).through
          (' ' :: ("DATA".toList ++ ' ' :: '\x7b' :: rest)) :=
        through_token insertWord
    _ = (mk [] .dataWord).through
          ("DATA".toList ++ ' ' :: '\x7b' :: rest) :=
        through_space _
    _ = (mk [] .openBrace).through (' ' :: '\x7b' :: rest) :=
        through_token dataWord
    _ = (mk [] .openBrace).through ('\x7b' :: rest) :=
        through_space _
    _ = (mk [] .subject).through rest :=
        through_token (longest_openBrace rest)

/-- Kept apart, the triples are read in the order in which they are written. -/
theorem parseInsertData_of_kept
    (written : ∀ term, WrittenAs term (n3 term))
    (kept : graph.IsChain (KeptApart n3)) :
    parseInsertData (insertToLocal n3 graph) = some graph := by
  rw [parseInsertData, insertToLocal_eq, through_header,
    through_triples written kept]
  rfl

theorem parseInsertData_of_not_kept
    (written : ∀ term, WrittenAs term (n3 term))
    (notKept : ¬ graph.IsChain (KeptApart n3)) :
    parseInsertData (insertToLocal n3 graph) = none := by
  rw [parseInsertData, insertToLocal_eq, through_header,
    through_triples_eq_none written notKept]
  rfl

end Reads

/--
Main result.  Whatever standard form `n3` gives the terms, the inserted text
denotes the graph exactly if no triple with an open-ended object is followed
directly by a triple with a blank subject.
-/
theorem denotesGraph_iff
    {n3 : Term → Text}
    (written : ∀ term, WrittenAs term (n3 term))
    (graph : List Triple) :
    DenotesGraph n3 graph ↔ graph.IsChain (KeptApart n3) := by
  constructor
  · rintro ⟨triples, parsed, -⟩
    by_contra notKept
    rw [parseInsertData_of_not_kept written notKept] at parsed
    exact absurd parsed (some_ne_none triples).symm
  · intro kept
    exact ⟨graph, parseInsertData_of_kept written kept, fun _ => Iff.rfl⟩

/-!
## A standard form
-/

/-- A quoted string with its closing mark. -/
def quoteRest : Text → Text
  | [] => ['"']
  | '\n' :: more => '\\' :: 'n' :: quoteRest more
  | '\r' :: more => '\\' :: 'r' :: quoteRest more
  | '"' :: more => '\\' :: '"' :: quoteRest more
  | '\\' :: more => '\\' :: '\\' :: quoteRest more
  | char :: more => char :: quoteRest more

/-- IRIs in angle brackets, blank nodes by their labels, literals quoted. -/
def standardForm : Term → Text
  | .node (.iri iri) => '<' :: (iri.text ++ ['>'])
  | .node (.blank label) => '_' :: ':' :: label.text
  | .literal lexical .plain => '"' :: quoteRest lexical
  | .literal lexical (.tagged tag) =>
      '"' :: quoteRest lexical ++ '@' :: tag.text
  | .literal lexical (.typed datatype) =>
      '"' :: quoteRest lexical ++ '^' :: '^' :: '<' :: (datatype.text ++ ['>'])

variable (lexical : Text)

theorem exists_quoteRest :
    ∃ first others, quoteRest lexical = first :: others := by
  cases lexical with
  | nil => exact ⟨'"', [], rfl⟩
  | cons char more =>
      rw [quoteRest.eq_def]
      split <;> exact ⟨_, _, rfl⟩

theorem shortBody_quoteRest :
    shortBody '"' (quoteRest lexical) = some lexical := by
  induction lexical using quoteRest.induct with
  | case1 => rfl
  | case2 _ hypothesis | case3 _ hypothesis | case4 _ hypothesis =>
      simp [quoteRest, shortBody, escapedChar, hypothesis]
  | case5 more hypothesis =>
      simp [quoteRest, shortBody, escapedChar, hypothesis]
  | case6 char more noLineFeed noReturn noMark noEscape hypothesis =>
      obtain ⟨first, others, restIs⟩ := exists_quoteRest more
      rw [quoteRest, restIs, shortBody]
      · rw [restIs] at hypothesis
        simp only [hypothesis, map_some]
        rw [if_neg noMark, if_neg noEscape,
          if_neg (not_or.mpr ⟨noLineFeed, noReturn⟩)]
      all_goals assumption

/-- A single mark at the end of a text does not open a long string. -/
theorem stringBody_of_shortBody
    {mark : Char}
    {text lexical : Text}
    (reads : shortBody mark text = some lexical) :
    stringBody mark text = some lexical := by
  match text with
  | [] => exact reads
  | [char] => exact reads
  | char :: next :: more =>
      have noMark : char ≠ mark := by
        rintro rfl
        simp [shortBody] at reads
      rw [stringBody, if_neg fun marks => noMark marks.1]
      exact reads

theorem writtenAs_standardForm (term : Term) :
    WrittenAs term (standardForm term) := by
  cases term with
  | node node =>
      cases node with
      | iri iri => exact .iri iri
      | blank label => exact .blank label
  | literal lexical kind =>
      have reads := stringBody_of_shortBody (shortBody_quoteRest lexical)
      cases kind with
      | plain => exact .plain '"' _ lexical (Or.inl rfl) reads
      | tagged tag => exact .tagged '"' _ lexical tag (Or.inl rfl) reads
      | typed datatype => exact .typed '"' _ lexical datatype (Or.inl rfl) reads

/-!
## Two graphs
-/

def exampleIri : Iri := ⟨"urn:a".toList, rfl⟩

def exampleLabel : BlankLabel := ⟨"N1".toList, rfl⟩

/-- A link from a named node to a blank node. -/
def linkToBlank : Triple where
  subject := .iri exampleIri
  predicate := exampleIri
  object := .node (.blank exampleLabel)

/-- A property of the blank node. -/
def blankProperty : Triple where
  subject := .blank exampleLabel
  predicate := exampleIri
  object := .literal "x".toList .plain

/-- The property comes before the link to its node. -/
theorem denotesGraph_propertyFirst :
    [blankProperty, linkToBlank].IsChain (KeptApart standardForm) ∧
      DenotesGraph standardForm [blankProperty, linkToBlank] :=
  ⟨by decide, (denotesGraph_iff writtenAs_standardForm _).mpr (by decide)⟩

/-- In `<urn:a> <urn:a> _:N1._:N1 <urn:a> "x".` the object is `_:N1._`. -/
theorem not_denotesGraph_linkFirst :
    (∀ term, WrittenAs term (standardForm term)) ∧
      ¬ DenotesGraph standardForm [linkToBlank, blankProperty] := by
  refine ⟨writtenAs_standardForm, ?_⟩
  rintro ⟨triples, parsed, -⟩
  rw [parseInsertData_of_not_kept writtenAs_standardForm (by decide)] at parsed
  exact absurd parsed (some_ne_none triples).symm

end DistributedRdf.InsertedText
