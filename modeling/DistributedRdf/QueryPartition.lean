import DistributedRdf.SparqlAlgebra

namespace DistributedRdf.Distribution

open Sparql List

/-!
# Splitting a query into class subqueries

The text side of `distributed_rdf.py`: `partition_query` cuts the `WHERE`
clause of a query into triple patterns, asks one subquery for every class it
mentions and one for every pair of classes, and `get_consolidated_triplets`
evaluates a subquery on every endpoint and joins the answers.

Texts are Python 2 byte strings.  A subquery is kept with the arguments it was
built from, so that its text and its SPARQL algebra are two functions of it.
-/

inductive PyError where
  | indexError
  | valueError
  deriving DecidableEq

def index (items : List α) (position : Nat) : Except PyError α :=
  match items[position]? with
  | some item => .ok item
  | none => .error .indexError

def isSpace (char : Char) : Bool :=
  char ∈ [' ', '\t', '\n', '\r', '\x0b', '\x0c']

def strip (text : Text) : Text :=
  ((text.dropWhile isSpace).reverse.dropWhile isSpace).reverse

def closeWord (word : Text) (words : List Text) : List Text :=
  if word = [] then words else word.reverse :: words

def splitFrom : Text → Text → List Text
  | word, [] => closeWord word []
  | word, char :: rest =>
      if isSpace char then
        closeWord word (splitFrom [] rest)
      else
        splitFrom (char :: word) rest

/-- `str.split()`: the maximal runs of characters that are not blank. -/
def split (text : Text) : List Text :=
  splitFrom [] text

/--
Pieces between occurrences of a separator.  `skip` characters of the
separator found last are still to be dropped.
-/
def splitOnFrom (separator : Text) : Nat → Text → Text → List Text
  | _, piece, [] => [piece.reverse]
  | skip + 1, piece, _ :: rest => splitOnFrom separator skip piece rest
  | 0, piece, char :: rest =>
      if separator.isPrefixOf (char :: rest) then
        piece.reverse :: splitOnFrom separator (separator.length - 1) [] rest
      else
        splitOnFrom separator 0 (char :: piece) rest

def splitOn (separator text : Text) : List Text :=
  splitOnFrom separator 0 [] text

/-- `template % arguments` for templates whose only conversion is `%s`. -/
def format : Text → List Text → Text
  | [], _ => []
  | '%' :: 's' :: rest, argument :: arguments =>
      argument ++ format rest arguments
  | char :: rest, arguments => char :: format rest arguments

def buildSubqueryEntity (prologue typeQuery : Text) : Text :=
  format
    "%s CONSTRUCT { ?s ?p ?o } WHERE { {?s ?p ?o . ?s a %s . FILTER(isLiteral(?o)) . } UNION { ?s ?p ?o . ?s a %s . ?s a ?o . } } ".toList
    [prologue, typeQuery, typeQuery]

def buildSubqueryPair (prologue typeSub typeObj : Text) : Text :=
  format
    "%s CONSTRUCT { ?s ?p ?o } WHERE { { ?s ?p ?o . ?s a %s . ?o a %s . } UNION { ?o ?p ?s . ?s a %s . ?o a %s . } }".toList
    [prologue, typeSub, typeObj, typeSub, typeObj]

/-- A generated subquery with the arguments its text was built from. -/
inductive SubQuery where
  | entity (prologue typeQuery : Text)
  | pair (prologue typeSub typeObj : Text)
  deriving DecidableEq

def SubQuery.text : SubQuery → Text
  | .entity prologue typeQuery => buildSubqueryEntity prologue typeQuery
  | .pair prologue typeSub typeObj => buildSubqueryPair prologue typeSub typeObj

/-- One `PREFIX name iri ` declaration starting at a token position. -/
def prefixAt (elements : List Text) (position : Nat) : Except PyError Text := do
  let keyword ← index elements position
  let name ← index elements (position + 1)
  let iri ← index elements (position + 2)
  return keyword ++ " ".toList ++ name ++ " ".toList ++ iri ++ " ".toList

variable (query : Text)

/-- The prefix declarations of a query: `PREFIX` at every third token. -/
def getPrefix : Except PyError Text :=
  let elements := split query
  let positions :=
    (range elements.length).filter fun position =>
      position % 3 = 0 ∧ elements[position]? = some "PREFIX".toList
  positions.foldlM
    (fun prologue position => do
      let declaration ← prefixAt elements position
      return prologue ++ declaration) []

/--
The token lists of the patterns in the `WHERE` clause: the text after the
first `WHERE` and the first `{`, up to the next `}`, cut at every `" ."`.
-/
def whereClause : Except PyError (List (List Text)) := do
  let afterWhere ← index (splitOn "WHERE".toList (strip query)) 1
  let afterBrace ← index (splitOn ['{'] (strip afterWhere)) 1
  let body ← index (splitOn ['}'] (strip afterBrace)) 0
  return ((splitOn " .".toList body).filter
    fun piece => strip piece ≠ []).map fun piece => split (strip piece)

/-- The spellings of `rdf:type` that `partition_query` recognises. -/
def typePredicates : List Text :=
  ["a".toList, "rdf:type".toList,
    "<http://www.w3.org/1999/02/22-rdf-syntax-ns#type>".toList]

/--
The loop over the patterns, collecting the entity subqueries and the classes.
A pattern without exactly three tokens fails to unpack.
-/
def collectEntities (prologue : Text) :
    List SubQuery → List Text → List (List Text) →
      Except PyError (List SubQuery × List Text)
  | queries, entities, [] => .ok (queries, entities)
  | queries, entities, [_, predicate, object] :: rest =>
      if predicate ∈ typePredicates ∧ object ∉ entities then
        collectEntities prologue
          (queries ++ [.entity prologue object]) (entities ++ [object]) rest
      else
        collectEntities prologue queries entities rest
  | _, _, _ :: _ => .error .valueError

def pairQueries (prologue : Text) (entities : List Text) : List SubQuery :=
  (range entities.length).flatMap fun first =>
    ((range entities.length).filter fun second => second > first).map
      fun second =>
        .pair prologue (entities.getD first []) (entities.getD second [])

/--
Partition a query.  An `IndexError` while cutting the `WHERE` clause is caught
and reported; exceptions raised later leave the function.
-/
def partitionQuery : Except PyError (List SubQuery) :=
  match whereClause query with
  | .error _ => .ok []
  | .ok patterns => do
      let prologue ← getPrefix query
      let (queries, entities) ← collectEntities prologue [] [] patterns
      return queries ++ pairQueries prologue entities

/-- The distinct classes of a list of patterns, in order of first mention. -/
def classesFrom : List Text → List (List Text) → List Text
  | entities, [] => entities
  | entities, [_, predicate, object] :: rest =>
      if predicate ∈ typePredicates ∧ object ∉ entities then
        classesFrom (entities ++ [object]) rest
      else
        classesFrom entities rest
  | entities, _ :: rest => classesFrom entities rest

def classes : List Text :=
  match whereClause query with
  | .error _ => []
  | .ok patterns => classesFrom [] patterns

variable {prologue : Text}

/-- The loop collects one entity subquery for each class it finds. -/
theorem collectEntities_ok
    {queries collected : List SubQuery}
    {entities found : List Text}
    {patterns : List (List Text)}
    (accepted :
      collectEntities prologue queries entities patterns =
        .ok (collected, found))
    (aligned : queries = entities.map (.entity prologue)) :
    found = classesFrom entities patterns ∧
      collected = found.map (.entity prologue) := by
  induction patterns generalizing queries entities with
  | nil =>
      cases accepted
      exact ⟨rfl, aligned⟩
  | cons pattern rest hypothesis =>
      match pattern, accepted with
      | [_, predicate, object], accepted =>
          simp only [collectEntities] at accepted
          simp only [classesFrom]
          split at accepted
          · rename_i newClass
            rw [if_pos newClass]
            exact hypothesis accepted (by simp [aligned])
          · rename_i known
            rw [if_neg known]
            exact hypothesis accepted aligned
      | [], accepted => cases accepted
      | [_], accepted => cases accepted
      | [_, _], accepted => cases accepted
      | _ :: _ :: _ :: _ :: _, accepted => cases accepted

/-- A subquery for a pair comes from two classes in their order of mention. -/
theorem mem_pairQueries
    {entities : List Text}
    {query : SubQuery} :
    query ∈ pairQueries prologue entities ↔
      ∃ first second : Nat, first < second ∧
        ∃ typeSub typeObj,
          entities[first]? = some typeSub ∧
            entities[second]? = some typeObj ∧
            query = .pair prologue typeSub typeObj := by
  simp only [pairQueries, mem_flatMap, mem_map, mem_filter,
    mem_range, gt_iff_lt, decide_eq_true_eq]
  constructor
  · rintro ⟨first, firstBound, second, ⟨secondBound, ordered⟩, rfl⟩
    refine ⟨first, second, ordered, entities[first], entities[second],
      by simp, by simp, ?_⟩
    simp [List.getD, firstBound, secondBound]
  · rintro ⟨first, second, ordered, typeSub, typeObj, firstAt, secondAt, rfl⟩
    obtain ⟨firstBound, firstIs⟩ := List.getElem?_eq_some_iff.mp firstAt
    obtain ⟨secondBound, secondIs⟩ := List.getElem?_eq_some_iff.mp secondAt
    refine ⟨first, firstBound, second, ⟨secondBound, ordered⟩, ?_⟩
    simp [List.getD, firstAt, secondAt]

variable {query}

/--
An accepted query either has no recognisable `WHERE` clause or yields its
entity subqueries followed by its pair subqueries.
-/
theorem partitionQuery_ok
    {queries : List SubQuery}
    (accepted : partitionQuery query = .ok queries) :
    ((∃ error, whereClause query = .error error) ∧ queries = []) ∨
      ∃ prologue, getPrefix query = .ok prologue ∧
        queries =
          (classes query).map (.entity prologue) ++
            pairQueries prologue (classes query) := by
  unfold partitionQuery at accepted
  unfold classes
  cases clause : whereClause query with
  | error error =>
      simp only [clause, Except.ok.injEq] at accepted
      exact .inl ⟨⟨error, rfl⟩, accepted.symm⟩
  | ok patterns =>
      simp only [clause] at accepted
      cases prologueRead : getPrefix query with
      | error _ => simp [prologueRead, bind, Except.bind] at accepted
      | ok prologue =>
          cases collection : collectEntities prologue [] [] patterns with
          | error _ =>
              simp [prologueRead, collection, bind, Except.bind] at accepted
          | ok collected =>
              rcases collected with ⟨entityQueries, entities⟩
              have shape := collectEntities_ok collection rfl
              simp only [prologueRead, collection, bind, Except.bind, pure,
                Except.pure, Except.ok.injEq] at accepted
              refine .inr ⟨prologue, rfl, ?_⟩
              rw [← accepted, shape.2, shape.1]

end DistributedRdf.Distribution
