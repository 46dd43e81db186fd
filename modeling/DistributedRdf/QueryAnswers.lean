import DistributedRdf.QueryPartition

namespace DistributedRdf.Distribution

open Sparql TriplePattern List Triple IsEmpty

/-!
# The graphs the subqueries return

An endpoint is a SPARQL service over one source graph.  How its parser reads a
token of a query text is not part of this repository: `read text token` is the
pattern term that the token of that text denotes, or `none` when the service
rejects the text.  Everything below holds for every such reader.

`mem_entityQuery` and `mem_pairQuery` say which triples of a source graph the
two kinds of subqueries build.  The second branch of a pair subquery matches a
link from `?o` to `?s` and builds the triple from `?s` to `?o`.
-/

/-- How the endpoints read one token of a query text. -/
abbrev Reader := Text → Text → Option PatternTerm

/-- The IRI `a` abbreviates. -/
def rdfType : Text :=
  "http://www.w3.org/1999/02/22-rdf-syntax-ns#type".toList

def subjectVar : Text := "s".toList

def predicateVar : Text := "p".toList

def objectVar : Text := "o".toList

/-- `?s ?p ?o` -/
def anyTriple : TriplePattern :=
  ⟨.var subjectVar, .var predicateVar, .var objectVar⟩

/-- `?o ?p ?s` -/
def swappedTriple : TriplePattern :=
  ⟨.var objectVar, .var predicateVar, .var subjectVar⟩

/-- `?node a cls` -/
def typing (node : Text) (cls : PatternTerm) : TriplePattern :=
  ⟨.var node, .term (.resource (.iri rdfType)), cls⟩

/-- The algebra of `build_subquery_entity`. -/
def entityQuery (cls : PatternTerm) : ConstructQuery where
  template := anyTriple
  groups := [
    ⟨[anyTriple, typing subjectVar cls], [objectVar]⟩,
    ⟨[anyTriple, typing subjectVar cls,
      typing subjectVar (.var objectVar)], []⟩]

/-- The algebra of `build_subquery_pair`. -/
def pairQuery (sub obj : PatternTerm) : ConstructQuery where
  template := anyTriple
  groups := [
    ⟨[anyTriple, typing subjectVar sub, typing objectVar obj], []⟩,
    ⟨[swappedTriple, typing subjectVar sub, typing objectVar obj], []⟩]

/-- The algebra an endpoint reads from the text of a subquery. -/
def SubQuery.construct (read : Reader) (query : SubQuery) :
    Option ConstructQuery :=
  match query with
  | .entity _ typeQuery => (read query.text typeQuery).map entityQuery
  | .pair _ typeSub typeObj =>
      (read query.text typeSub).bind fun sub =>
        (read query.text typeObj).map fun obj => pairQuery sub obj

/-- One endpoint's answer; a rejected text raises and gives no graph. -/
def doQuery (read : Reader) (endpoint : Graph) (query : SubQuery) :
    Option Graph :=
  (query.construct read).map fun algebra => Sparql.construct endpoint algebra

/-- `result += graph` over all graphs, as a union of sets. -/
def joinTriplets (data : List Graph) : Graph :=
  data.foldl (fun result graph => result ∪ graph) []

def getConsolidatedTriplets
    (read : Reader)
    (query : SubQuery)
    (sourceEndpoints : List Graph) : Option Graph :=
  (sourceEndpoints.mapM fun endpoint => doQuery read endpoint query).map
    joinTriplets

variable
  {data : List Graph}
  {triple : Triple}

private theorem mem_foldl_union
    {initial : Graph} :
    triple ∈ data.foldl (fun result graph => result ∪ graph) initial ↔
      triple ∈ initial ∨ ∃ graph, graph ∈ data ∧ triple ∈ graph := by
  induction data generalizing initial with
  | nil => simp
  | cons graph rest hypothesis =>
      rw [foldl_cons, hypothesis, mem_union_iff]
      simp only [mem_cons, exists_eq_or_imp, or_assoc]

@[simp] theorem mem_joinTriplets :
    triple ∈ joinTriplets data ↔
      ∃ graph, graph ∈ data ∧ triple ∈ graph := by
  simp [joinTriplets, mem_foldl_union]

variable
  {items : List β}
  {f : β → Option γ}

/-- The results of a successful `mapM` are those of its items. -/
theorem mem_mapM_iff
    {results : List γ}
    (all : items.mapM f = some results)
    {result : γ} :
    result ∈ results ↔ ∃ item, item ∈ items ∧ f item = some result := by
  induction items generalizing results with
  | nil =>
      rw [mapM_nil, Option.pure_def, Option.some.injEq] at all
      simp [← all]
  | cons item rest hypothesis =>
      simp only [mapM_cons, Option.bind_eq_bind, Option.pure_def,
        Option.bind_eq_some_iff, Option.some.injEq] at all
      rcases all with ⟨first, found, others, restAll, rfl⟩
      rw [mem_cons, hypothesis restAll]
      simp only [mem_cons, exists_eq_or_imp, found, Option.some.injEq]
      exact or_congr eq_comm Iff.rfl

/-- `mapM` succeeds exactly when every item does. -/
theorem exists_mapM_iff :
    (∃ results, items.mapM f = some results) ↔
      ∀ item, item ∈ items → ∃ result, f item = some result := by
  induction items with
  | nil => simp
  | cons item rest hypothesis =>
      simp only [mem_cons, forall_eq_or_imp, ← hypothesis,
        mapM_cons, Option.bind_eq_bind, Option.pure_def,
        Option.bind_eq_some_iff, Option.some.injEq]
      constructor
      · rintro ⟨_, first, found, others, restAll, _⟩
        exact ⟨⟨first, found⟩, others, restAll⟩
      · rintro ⟨⟨first, found⟩, others, restAll⟩
        exact ⟨_, first, found, others, restAll, rfl⟩

variable
  {read : Reader}
  {query : SubQuery}
  {sourceEndpoints : List Graph}

/--
A consolidated triple was built by the subquery's algebra over one of the
endpoints.
-/
theorem mem_getConsolidatedTriplets
    {result : Graph}
    (answered :
      getConsolidatedTriplets read query sourceEndpoints = some result) :
    triple ∈ result ↔
      ∃ algebra, query.construct read = some algebra ∧
        ∃ source, source ∈ sourceEndpoints ∧
          triple ∈ Sparql.construct source algebra := by
  rw [getConsolidatedTriplets, Option.map_eq_some_iff] at answered
  rcases answered with ⟨data, all, rfl⟩
  rw [mem_joinTriplets]
  simp only [mem_mapM_iff all, doQuery, Option.map_eq_some_iff]
  constructor
  · rintro ⟨graph, ⟨source, endpoint, algebra, readable, rfl⟩, built⟩
    exact ⟨algebra, readable, source, endpoint, built⟩
  · rintro ⟨algebra, readable, source, endpoint, built⟩
    exact ⟨_, ⟨source, endpoint, algebra, readable, rfl⟩, built⟩

/-- A subquery is answered exactly when every endpoint can read it. -/
theorem exists_getConsolidatedTriplets :
    (∃ result,
      getConsolidatedTriplets read query sourceEndpoints = some result) ↔
      sourceEndpoints = [] ∨
        ∃ algebra, query.construct read = some algebra := by
  simp only [getConsolidatedTriplets, Option.map_eq_some_iff]
  rw [exists_comm]
  simp only [exists_and_left, exists_eq', and_true, exists_mapM_iff, doQuery,
    Option.map_eq_some_iff]
  constructor
  · intro all
    cases sourceEndpoints with
    | nil => exact .inl rfl
    | cons source rest =>
        rcases all source (by simp) with ⟨_, algebra, readable, _⟩
        exact .inr ⟨algebra, readable⟩
  · rintro (rfl | ⟨algebra, readable⟩) source member
    · exact absurd member (by simp)
    · exact ⟨_, algebra, readable, rfl⟩

/-!
## Triples a subquery builds over one source graph
-/

/-- The solution gives `?s`, `?p` and `?o` the terms of the triple. -/
def Denotes (solution : Solution) (triple : Triple) : Prop :=
  anyTriple.instantiate solution = some triple

/-- The source types the node with a term the class pattern denotes. -/
def HasClass
    (source : Graph)
    (solution : Solution)
    (node : Resource)
    (cls : PatternTerm) : Prop :=
  ∃ classTerm, cls.value solution = some classTerm ∧
    (⟨node, rdfType, classTerm⟩ : Triple) ∈ source

/-- A triple of an instance of the class whose object is a literal. -/
def AttributeOf (source : Graph) (cls : PatternTerm) (triple : Triple) :
    Prop :=
  triple ∈ source ∧ triple.object.isLiteral = true ∧
    ∃ solution, Denotes solution triple ∧
      HasClass source solution triple.subject cls

/-- A triple of an instance of the class whose object is one of its types. -/
def TypeLinkOf (source : Graph) (cls : PatternTerm) (triple : Triple) :
    Prop :=
  triple ∈ source ∧
    (⟨triple.subject, rdfType, triple.object⟩ : Triple) ∈ source ∧
    ∃ solution, Denotes solution triple ∧
      HasClass source solution triple.subject cls

/-- A triple from an instance of the first class to one of the second. -/
def LinkBetween (source : Graph) (sub obj : PatternTerm) (triple : Triple) :
    Prop :=
  triple ∈ source ∧
    ∃ target, triple.object = .resource target ∧
      ∃ solution, Denotes solution triple ∧
        HasClass source solution triple.subject sub ∧
        HasClass source solution target obj

/--
The triple points from an instance of the first class to one of the second,
and the source holds the link the other way round.
-/
def ReversedLink (source : Graph) (sub obj : PatternTerm) (triple : Triple) :
    Prop :=
  ∃ target, triple.object = .resource target ∧
    (⟨target, triple.predicate, .resource triple.subject⟩ : Triple) ∈
      source ∧
    ∃ solution, Denotes solution triple ∧
      HasClass source solution triple.subject sub ∧
      HasClass source solution target obj

variable {solution : Solution}

theorem denotes_iff :
    Denotes solution triple ↔
      solution subjectVar = some triple.subjectTerm ∧
        solution predicateVar = some triple.predicateTerm ∧
        solution objectVar = some triple.object := by
  simp [Denotes, instantiate_eq_some, anyTriple]

variable {source : Graph}

theorem anyTriple_holdsIn
    (denotes : Denotes solution triple) :
    anyTriple.HoldsIn source solution ↔ triple ∈ source := by
  constructor
  · rintro ⟨other, member, otherDenotes⟩
    have same : other = triple :=
      Option.some.inj (otherDenotes.symm.trans denotes)
    rwa [← same]
  · intro member
    exact ⟨triple, member, denotes⟩

variable {cls : PatternTerm}

theorem typing_holdsIn
    {name : Text}
    {node : Resource}
    (value : solution name = some (.resource node)) :
    (typing name cls).HoldsIn source solution ↔
      HasClass source solution node cls := by
  unfold TriplePattern.HoldsIn HasClass
  simp only [instantiate_eq_some, typing,
    PatternTerm.value_var, PatternTerm.value_term, value,
    Option.some.injEq, subjectTerm, predicateTerm,
    Term.resource.injEq, Resource.iri.injEq]
  constructor
  · rintro ⟨triple, member, rfl, typePredicate, object⟩
    refine ⟨triple.object, object, ?_⟩
    rw [typePredicate]
    exact member
  · rintro ⟨classTerm, object, member⟩
    exact ⟨_, member, rfl, rfl, object⟩

/-- A literal is never typed. -/
theorem typing_literal
    {name lexical : Text}
    (value : solution name = some (.literal lexical)) :
    ¬ (typing name cls).HoldsIn source solution := by
  rintro ⟨triple, _, denotes⟩
  rw [instantiate_eq_some] at denotes
  simp [typing, value, subjectTerm] at denotes

theorem swappedTriple_holdsIn
    {target : Resource}
    (denotes : Denotes solution triple)
    (object : triple.object = .resource target) :
    swappedTriple.HoldsIn source solution ↔
      (⟨target, triple.predicate, .resource triple.subject⟩ : Triple) ∈
        source := by
  rw [denotes_iff] at denotes
  rcases denotes with ⟨subjectValue, predicateValue, objectValue⟩
  have instantiates :
      swappedTriple.instantiate solution =
        some ⟨target, triple.predicate, .resource triple.subject⟩ := by
    rw [instantiate_eq_some]
    simp [swappedTriple, subjectValue, predicateValue, objectValue, object,
      subjectTerm, predicateTerm]
  unfold TriplePattern.HoldsIn
  rw [instantiates]
  simp

theorem entityQuery_safe (cls : PatternTerm) : (entityQuery cls).Safe := by
  intro group member name occurs
  simp only [entityQuery, mem_cons, not_mem_nil, or_false] at member
  rcases member with rfl | rfl <;>
    refine ⟨anyTriple, by simp, ?_⟩ <;>
    simpa [entityQuery, anyTriple, vars, PatternTerm.vars]
      using occurs

theorem pairQuery_safe (sub obj : PatternTerm) : (pairQuery sub obj).Safe := by
  intro group member name occurs
  simp only [pairQuery, mem_cons, not_mem_nil, or_false] at member
  rcases member with rfl | rfl
  · refine ⟨anyTriple, by simp, ?_⟩
    simpa [pairQuery, anyTriple, vars, PatternTerm.vars]
      using occurs
  · refine ⟨swappedTriple, by simp, ?_⟩
    simp only [pairQuery, anyTriple, swappedTriple, vars,
      PatternTerm.vars, mem_append, mem_singleton,
      not_mem_nil, or_false] at occurs ⊢
    rcases occurs with (isSubject | isPredicate) | isObject
    · exact .inr isSubject
    · exact .inl (.inr isPredicate)
    · exact .inl (.inl isObject)

/-- The triples an entity subquery builds over one source graph. -/
theorem mem_entityQuery :
    triple ∈ construct source (entityQuery cls) ↔
      AttributeOf source cls triple ∨ TypeLinkOf source cls triple := by
  rw [mem_construct (entityQuery_safe cls)]
  simp only [entityQuery, mem_cons, not_mem_nil, or_false,
    exists_eq_or_imp, exists_eq_left, Group.SolvedBy, SolvesPatterns,
    forall_eq_or_imp, forall_eq, forall_iff, implies_true, and_true]
  constructor
  · rintro (⟨solution, ⟨⟨present, typed⟩, literal⟩, denotes⟩ |
      ⟨solution, ⟨present, typed, ownType⟩, denotes⟩)
    · have values := denotes_iff.mp denotes
      rw [anyTriple_holdsIn denotes] at present
      rw [typing_holdsIn values.1] at typed
      rw [values.2.2] at literal
      simp only [Option.some.injEq, exists_eq_left'] at literal
      exact .inl ⟨present, literal, solution, denotes, typed⟩
    · have values := denotes_iff.mp denotes
      rw [anyTriple_holdsIn denotes] at present
      rw [typing_holdsIn values.1] at typed ownType
      rcases ownType with ⟨classTerm, classValue, ownType⟩
      rw [PatternTerm.value_var, values.2.2, Option.some.injEq] at classValue
      subst classTerm
      exact .inr ⟨present, ownType, solution, denotes, typed⟩
  · rintro (⟨present, literal, solution, denotes, typed⟩ |
      ⟨present, ownType, solution, denotes, typed⟩)
    · have values := denotes_iff.mp denotes
      refine .inl ⟨solution, ⟨⟨?_, ?_⟩, ?_⟩, denotes⟩
      · rwa [anyTriple_holdsIn denotes]
      · rwa [typing_holdsIn values.1]
      · exact ⟨triple.object, values.2.2, literal⟩
    · have values := denotes_iff.mp denotes
      refine .inr ⟨solution, ⟨?_, ?_, ?_⟩, denotes⟩
      · rwa [anyTriple_holdsIn denotes]
      · rwa [typing_holdsIn values.1]
      · rw [typing_holdsIn values.1]
        exact ⟨triple.object, values.2.2, ownType⟩

/-- The triples a pair subquery builds over one source graph. -/
theorem mem_pairQuery
    {sub obj : PatternTerm} :
    triple ∈ construct source (pairQuery sub obj) ↔
      LinkBetween source sub obj triple ∨
        ReversedLink source sub obj triple := by
  have objectIsNode
      {solution : Solution}
      (denotes : Denotes solution triple)
      (typed : (typing objectVar obj).HoldsIn source solution) :
      ∃ target, triple.object = .resource target := by
    have values := denotes_iff.mp denotes
    cases object : triple.object with
    | resource target => exact ⟨target, rfl⟩
    | literal lexical =>
        rw [object] at values
        exact (typing_literal values.2.2 typed).elim
  rw [mem_construct (pairQuery_safe sub obj)]
  simp only [pairQuery, mem_cons, not_mem_nil, or_false,
    exists_eq_or_imp, exists_eq_left, Group.SolvedBy, SolvesPatterns,
    forall_eq_or_imp, forall_eq, forall_iff, implies_true, and_true]
  constructor
  · rintro (⟨solution, ⟨present, subTyped, objTyped⟩, denotes⟩ |
      ⟨solution, ⟨present, subTyped, objTyped⟩, denotes⟩)
    · rcases objectIsNode denotes objTyped with ⟨target, object⟩
      have values := denotes_iff.mp denotes
      rw [anyTriple_holdsIn denotes] at present
      rw [typing_holdsIn values.1] at subTyped
      rw [typing_holdsIn (values.2.2.trans (congrArg some object))]
        at objTyped
      exact .inl
        ⟨present, target, object, solution, denotes, subTyped, objTyped⟩
    · rcases objectIsNode denotes objTyped with ⟨target, object⟩
      have values := denotes_iff.mp denotes
      rw [swappedTriple_holdsIn denotes object] at present
      rw [typing_holdsIn values.1] at subTyped
      rw [typing_holdsIn (values.2.2.trans (congrArg some object))]
        at objTyped
      exact .inr
        ⟨target, object, present, solution, denotes, subTyped, objTyped⟩
  · rintro (⟨present, target, object, solution, denotes, subTyped, objTyped⟩ |
      ⟨target, object, present, solution, denotes, subTyped, objTyped⟩)
    · have values := denotes_iff.mp denotes
      refine .inl ⟨solution, ⟨?_, ?_, ?_⟩, denotes⟩
      · rwa [anyTriple_holdsIn denotes]
      · rwa [typing_holdsIn values.1]
      · rwa [typing_holdsIn (values.2.2.trans (congrArg some object))]
    · have values := denotes_iff.mp denotes
      refine .inr ⟨solution, ⟨?_, ?_, ?_⟩, denotes⟩
      · rwa [swappedTriple_holdsIn denotes object]
      · rwa [typing_holdsIn values.1]
      · rwa [typing_holdsIn (values.2.2.trans (congrArg some object))]

/-!
## A reader for queries written with variables and absolute IRIs
-/

/-- Reads `?name`, `<iri>` and `a`; rejects every other token. -/
def absoluteReader : Reader := fun _ token =>
  match token with
  | '?' :: name => some (.var name)
  | '<' :: rest =>
      if rest.getLast? = some '>' then
        some (.term (.resource (.iri rest.dropLast)))
      else
        none
  | ['a'] => some (.term (.resource (.iri rdfType)))
  | _ => none

end DistributedRdf.Distribution
