import DistributedRdf.QueryAnswers

namespace DistributedRdf.Distribution

open Sparql Option List

/-!
# What the distribution of a query retrieves

The subqueries of an accepted query are compared with the source graphs.  A
pair subquery returns a reversed link whenever a source graph links an instance
of a later class to an instance of an earlier one, so soundness depends on the
source graphs.  Completeness depends on every used triple being stored next to
the typing triples of a subquery that asks for it.
-/

/-- Two classes of a query in their order of first mention. -/
def OrderedClasses (query typeSub typeObj : Text) : Prop :=
  ∃ first second : Nat, first < second ∧
    (classes query)[first]? = some typeSub ∧
    (classes query)[second]? = some typeObj

variable
  {query prologue : Text}
  {queries : List SubQuery}

/-- The subqueries of an accepted query, in terms of its classes. -/
theorem mem_partitionQuery
    (accepted : partitionQuery query = .ok queries)
    (prologueRead : getPrefix query = .ok prologue)
    {subquery : SubQuery} :
    subquery ∈ queries ↔
      (∃ typeQuery, typeQuery ∈ classes query ∧
        subquery = .entity prologue typeQuery) ∨
      ∃ typeSub typeObj, OrderedClasses query typeSub typeObj ∧
        subquery = .pair prologue typeSub typeObj := by
  rcases partitionQuery_ok accepted with
      ⟨⟨error, failed⟩, rfl⟩ | ⟨own, ownRead, rfl⟩
  · have noClasses : classes query = [] := by
      simp [classes, failed]
    simp [noClasses, OrderedClasses]
  · have same : own = prologue := by
      rw [prologueRead, Except.ok.injEq] at ownRead
      exact ownRead.symm
    subst own
    rw [mem_append, List.mem_map, mem_pairQueries]
    apply or_congr
    · constructor
      · rintro ⟨typeQuery, member, rfl⟩
        exact ⟨typeQuery, member, rfl⟩
      · rintro ⟨typeQuery, member, rfl⟩
        exact ⟨typeQuery, member, rfl⟩
    · constructor
      · rintro ⟨first, second, ordered, typeSub, typeObj, firstAt,
          secondAt, shape⟩
        exact ⟨typeSub, typeObj,
          ⟨first, second, ordered, firstAt, secondAt⟩, shape⟩
      · rintro ⟨typeSub, typeObj,
          ⟨first, second, ordered, firstAt, secondAt⟩, shape⟩
        exact ⟨first, second, ordered, typeSub, typeObj, firstAt,
          secondAt, shape⟩

/-- The triples of one class or one pair of classes that a query retrieves. -/
inductive Retrieved
    (read : Reader)
    (sourceEndpoints : List Graph)
    (query prologue : Text)
    (triple : Triple) : Prop where
  | entity
      {typeQuery : Text}
      {cls : PatternTerm}
      {source : Graph}
      (mentioned : typeQuery ∈ classes query)
      (readable :
        read (buildSubqueryEntity prologue typeQuery) typeQuery = some cls)
      (endpoint : source ∈ sourceEndpoints)
      (found : AttributeOf source cls triple ∨ TypeLinkOf source cls triple) :
      Retrieved read sourceEndpoints query prologue triple
  | pair
      {typeSub typeObj : Text}
      {sub obj : PatternTerm}
      {source : Graph}
      (mentioned : OrderedClasses query typeSub typeObj)
      (readableSub :
        read (buildSubqueryPair prologue typeSub typeObj) typeSub = some sub)
      (readableObj :
        read (buildSubqueryPair prologue typeSub typeObj) typeObj = some obj)
      (endpoint : source ∈ sourceEndpoints)
      (found :
        LinkBetween source sub obj triple ∨
          ReversedLink source sub obj triple) :
      Retrieved read sourceEndpoints query prologue triple

variable
  {read : Reader}
  {algebra : ConstructQuery}

theorem construct_entity_eq_some
    {prologue typeQuery : Text} :
    (SubQuery.entity prologue typeQuery).construct read = some algebra ↔
      ∃ cls,
        read (buildSubqueryEntity prologue typeQuery) typeQuery = some cls ∧
          entityQuery cls = algebra := by
  simp [SubQuery.construct, SubQuery.text]

theorem construct_pair_eq_some
    {prologue typeSub typeObj : Text} :
    (SubQuery.pair prologue typeSub typeObj).construct read = some algebra ↔
      ∃ sub obj,
        read (buildSubqueryPair prologue typeSub typeObj) typeSub =
            some sub ∧
          read (buildSubqueryPair prologue typeSub typeObj) typeObj =
            some obj ∧
          pairQuery sub obj = algebra := by
  simp [SubQuery.construct, SubQuery.text, bind_eq_some_iff]

variable
  {sourceEndpoints : List Graph}
  {triple : Triple}

/-- A triple is retrieved exactly when some subquery's algebra builds it. -/
theorem retrieved_iff
    (accepted : partitionQuery query = .ok queries)
    (prologueRead : getPrefix query = .ok prologue) :
    Retrieved read sourceEndpoints query prologue triple ↔
      ∃ subquery, subquery ∈ queries ∧
        ∃ algebra, subquery.construct read = some algebra ∧
          ∃ source, source ∈ sourceEndpoints ∧
            triple ∈ construct source algebra := by
  constructor
  · intro retrieved
    cases retrieved with
    | entity mentioned readable endpoint found =>
        exact ⟨_,
          (mem_partitionQuery accepted prologueRead).mpr
            (.inl ⟨_, mentioned, rfl⟩),
          _, construct_entity_eq_some.mpr ⟨_, readable, rfl⟩,
          _, endpoint, mem_entityQuery.mpr found⟩
    | pair mentioned readableSub readableObj endpoint found =>
        exact ⟨_,
          (mem_partitionQuery accepted prologueRead).mpr
            (.inr ⟨_, _, mentioned, rfl⟩),
          _, construct_pair_eq_some.mpr
            ⟨_, _, readableSub, readableObj, rfl⟩,
          _, endpoint, mem_pairQuery.mpr found⟩
  · rintro ⟨subquery, member, algebra, readable, source, endpoint, built⟩
    rcases (mem_partitionQuery accepted prologueRead).mp member with
        ⟨typeQuery, mentioned, rfl⟩ | ⟨typeSub, typeObj, mentioned, rfl⟩
    · rcases construct_entity_eq_some.mp readable with
        ⟨cls, classRead, rfl⟩
      exact .entity mentioned classRead endpoint (mem_entityQuery.mp built)
    · rcases construct_pair_eq_some.mp readable with
        ⟨sub, obj, subRead, objRead, rfl⟩
      exact .pair mentioned subRead objRead endpoint (mem_pairQuery.mp built)

/-!
## Soundness
-/

variable
  (read)
  (sourceEndpoints)

/-- Every triple of every subquery's answer is a triple of a source graph. -/
def Sound
    (queries : List SubQuery) : Prop :=
  ∀ subquery, subquery ∈ queries →
    ∀ result,
      getConsolidatedTriplets read subquery sourceEndpoints = some result →
        ∀ triple, triple ∈ result →
          ∃ source, source ∈ sourceEndpoints ∧ triple ∈ source

/--
Whenever a source graph links an instance of a later class of the query to an
instance of an earlier class, some source graph holds the reversed link too.
-/
def ReversedLinksPresent
    (query : Text) : Prop :=
  ∀ prologue, getPrefix query = .ok prologue →
    ∀ typeSub typeObj, OrderedClasses query typeSub typeObj →
      ∀ sub obj,
        read (buildSubqueryPair prologue typeSub typeObj) typeSub =
            some sub →
        read (buildSubqueryPair prologue typeSub typeObj) typeObj =
            some obj →
        ∀ source, source ∈ sourceEndpoints →
          ∀ triple, ReversedLink source sub obj triple →
            ∃ other, other ∈ sourceEndpoints ∧ triple ∈ other

variable
  {read}
  {sourceEndpoints}

/-- All triples other than reversed links come from their own source graph. -/
theorem Retrieved.mem_source
    (prologueRead : getPrefix query = .ok prologue)
    (present : ReversedLinksPresent read sourceEndpoints query)
    (retrieved : Retrieved read sourceEndpoints query prologue triple) :
    ∃ source, source ∈ sourceEndpoints ∧ triple ∈ source := by
  cases retrieved with
  | entity mentioned readable endpoint found =>
      rcases found with literalLink | typeLink
      · exact ⟨_, endpoint, literalLink.1⟩
      · exact ⟨_, endpoint, typeLink.1⟩
  | pair mentioned readableSub readableObj endpoint found =>
      rcases found with link | reversed
      · exact ⟨_, endpoint, link.1⟩
      · exact present prologue prologueRead _ _ mentioned _ _
          readableSub readableObj _ endpoint triple reversed

/--
The distribution of an accepted query is sound exactly when every link from a
later class of the query to an earlier one is also present reversed.
-/
theorem sound_iff_reversedLinksPresent
    (read : Reader)
    (sourceEndpoints : List Graph)
    {query : Text}
    {queries : List SubQuery}
    (accepted : partitionQuery query = .ok queries) :
    Sound read sourceEndpoints queries ↔
      ReversedLinksPresent read sourceEndpoints query := by
  constructor
  · intro sound prologue prologueRead typeSub typeObj mentioned sub obj
      readableSub readableObj source endpoint triple reversed
    have readable :
        (SubQuery.pair prologue typeSub typeObj).construct read =
          some (pairQuery sub obj) :=
      construct_pair_eq_some.mpr ⟨sub, obj, readableSub, readableObj, rfl⟩
    have member : SubQuery.pair prologue typeSub typeObj ∈ queries :=
      (mem_partitionQuery accepted prologueRead).mpr
        (.inr ⟨typeSub, typeObj, mentioned, rfl⟩)
    obtain ⟨result, answered⟩ :=
      exists_getConsolidatedTriplets.mpr (.inr ⟨_, readable⟩)
    apply sound _ member result answered triple
    rw [mem_getConsolidatedTriplets answered]
    exact ⟨_, readable, source, endpoint, mem_pairQuery.mpr (.inr reversed)⟩
  · intro present subquery member result answered triple inResult
    rw [mem_getConsolidatedTriplets answered] at inResult
    rcases inResult with ⟨algebra, readable, source, endpoint, built⟩
    rcases partitionQuery_ok accepted with
        ⟨_, rfl⟩ | ⟨prologue, prologueRead, _⟩
    · exact absurd member (by simp)
    · have retrieved : Retrieved read sourceEndpoints query prologue triple :=
        (retrieved_iff accepted prologueRead).mpr
          ⟨subquery, member, algebra, readable, source, endpoint, built⟩
      exact retrieved.mem_source prologueRead present

/-- A query over two classes linked from the later one to the earlier one. -/
def backwardQuery : Text :=
  "SELECT ?x WHERE { ?x a <A> . ?y a <B> . ?y <knows> ?x }".toList

/-- One source graph in which `y` of class `B` knows `x` of class `A`. -/
def backwardSource : Graph := [
  ⟨.iri "x".toList, rdfType, .resource (.iri "A".toList)⟩,
  ⟨.iri "y".toList, rdfType, .resource (.iri "B".toList)⟩,
  ⟨.iri "y".toList, "knows".toList, .resource (.iri "x".toList)⟩]

theorem backwardQuery_accepted :
    partitionQuery backwardQuery =
      .ok [.entity [] "<A>".toList, .entity [] "<B>".toList,
        .pair [] "<A>".toList "<B>".toList] := by
  decide +kernel

theorem sound_iff_reversedLinksPresent_backward :
    Sound absoluteReader [backwardSource]
        [.entity [] "<A>".toList, .entity [] "<B>".toList,
          .pair [] "<A>".toList "<B>".toList] ↔
      ReversedLinksPresent absoluteReader [backwardSource] backwardQuery :=
  sound_iff_reversedLinksPresent absoluteReader [backwardSource]
    backwardQuery_accepted

/-- The pair subquery fabricates `x knows y`. -/
theorem not_sound_backward :
    ¬ ∀ (sourceEndpoints : List Graph) (query : Text)
        (queries : List SubQuery),
      partitionQuery query = .ok queries →
        Sound absoluteReader sourceEndpoints queries := by
  intro sound
  have answered :
      getConsolidatedTriplets absoluteReader
          (.pair [] "<A>".toList "<B>".toList) [backwardSource] =
        some [⟨.iri "x".toList, "knows".toList,
          .resource (.iri "y".toList)⟩] := by
    decide +kernel
  obtain ⟨source, endpoint, member⟩ :=
    sound [backwardSource] backwardQuery _ backwardQuery_accepted
      (.pair [] "<A>".toList "<B>".toList) (by simp) _ answered _
      (mem_singleton.mpr rfl)
  rw [mem_singleton] at endpoint
  subst source
  exact absurd member (by decide +kernel)

/-!
## Completeness
-/

variable (read)

/-- One triple pattern of the user's query, as the endpoints read it. -/
def readPattern (query : Text) :
    List Text → Option TriplePattern
  | [subject, predicate, object] => do
      let subject ← read query subject
      let predicate ← read query predicate
      let object ← read query object
      return ⟨subject, predicate, object⟩
  | _ => none

/-- The basic graph pattern of the user's query. -/
def queryPatterns (query : Text) :
    Option (List TriplePattern) :=
  match whereClause query with
  | .ok patterns => patterns.mapM (readPattern read query)
  | .error _ => none

variable (sourceEndpoints)

/-- The union of the answers of all subqueries. -/
def globalGraph
    (queries : List SubQuery) : Option Graph :=
  (queries.mapM fun subquery =>
    getConsolidatedTriplets read subquery sourceEndpoints).map joinTriplets

/--
Every solution of the query over the union of the sources is a solution over
the union of the subqueries' answers.
-/
def Complete
    (query : Text)
    (queries : List SubQuery) : Prop :=
  ∀ patterns, queryPatterns read query = some patterns →
    ∃ result, globalGraph read sourceEndpoints queries = some result ∧
      ∀ solution,
        SolvesPatterns (joinTriplets sourceEndpoints) patterns solution →
          SolvesPatterns result patterns solution

/-- The endpoints read the classes of the query in all its subqueries. -/
def ClassesReadable
    (query prologue : Text) : Prop :=
  (∀ typeQuery, typeQuery ∈ classes query →
    (read (buildSubqueryEntity prologue typeQuery) typeQuery).isSome) ∧
  ∀ typeSub typeObj, OrderedClasses query typeSub typeObj →
    (read (buildSubqueryPair prologue typeSub typeObj) typeSub).isSome ∧
    (read (buildSubqueryPair prologue typeSub typeObj) typeObj).isSome

/--
The classes are readable, and each triple a solution uses is stored by one
endpoint together with the typing triples of a subquery that retrieves it.
-/
def UsedTriplesRetrieved
    (query : Text) : Prop :=
  ∀ patterns, queryPatterns read query = some patterns →
    ∀ prologue, getPrefix query = .ok prologue →
      (sourceEndpoints = [] ∨ ClassesReadable read query prologue) ∧
        ∀ solution,
          SolvesPatterns (joinTriplets sourceEndpoints) patterns solution →
            ∀ pattern, pattern ∈ patterns →
              ∀ triple, pattern.instantiate solution = some triple →
                Retrieved read sourceEndpoints query prologue triple

variable
  {read}
  {sourceEndpoints}

section

variable (accepted : partitionQuery query = .ok queries)

include accepted

variable (prologueRead : getPrefix query = .ok prologue)

include prologueRead

/-- All subqueries are answered exactly when their classes are readable. -/
theorem exists_globalGraph :
    (∃ result, globalGraph read sourceEndpoints queries = some result) ↔
      sourceEndpoints = [] ∨ ClassesReadable read query prologue := by
  have answered :
      (∃ result, globalGraph read sourceEndpoints queries = some result) ↔
        ∀ subquery, subquery ∈ queries →
          sourceEndpoints = [] ∨
            ∃ algebra, subquery.construct read = some algebra := by
    simp only [globalGraph, map_eq_some_iff]
    rw [exists_comm]
    simp only [exists_and_left, exists_eq', and_true, exists_mapM_iff,
      exists_getConsolidatedTriplets]
  rw [answered]
  by_cases noEndpoints : sourceEndpoints = []
  · simp [noEndpoints]
  · simp only [noEndpoints, false_or, ClassesReadable,
      isSome_iff_exists]
    constructor
    · intro all
      constructor
      · intro typeQuery mentioned
        obtain ⟨algebra, readable⟩ := all _
          ((mem_partitionQuery accepted prologueRead).mpr
            (.inl ⟨typeQuery, mentioned, rfl⟩))
        rcases construct_entity_eq_some.mp readable with ⟨cls, found, _⟩
        exact ⟨cls, found⟩
      · intro typeSub typeObj mentioned
        obtain ⟨algebra, readable⟩ := all _
          ((mem_partitionQuery accepted prologueRead).mpr
            (.inr ⟨typeSub, typeObj, mentioned, rfl⟩))
        rcases construct_pair_eq_some.mp readable with
          ⟨sub, obj, subFound, objFound, _⟩
        exact ⟨⟨sub, subFound⟩, obj, objFound⟩
    · rintro ⟨entities, pairs⟩ subquery member
      rcases (mem_partitionQuery accepted prologueRead).mp member with
          ⟨typeQuery, mentioned, rfl⟩ | ⟨typeSub, typeObj, mentioned, rfl⟩
      · obtain ⟨cls, found⟩ := entities typeQuery mentioned
        exact ⟨_, construct_entity_eq_some.mpr ⟨cls, found, rfl⟩⟩
      · obtain ⟨⟨sub, subFound⟩, obj, objFound⟩ :=
          pairs typeSub typeObj mentioned
        exact ⟨_, construct_pair_eq_some.mpr
          ⟨sub, obj, subFound, objFound, rfl⟩⟩

/-- The global graph holds exactly the retrieved triples. -/
theorem mem_globalGraph
    {result : Graph}
    (answered : globalGraph read sourceEndpoints queries = some result) :
    triple ∈ result ↔
      Retrieved read sourceEndpoints query prologue triple := by
  rw [globalGraph, map_eq_some_iff] at answered
  rcases answered with ⟨data, all, rfl⟩
  rw [retrieved_iff accepted prologueRead, mem_joinTriplets]
  simp only [mem_mapM_iff all]
  constructor
  · rintro ⟨graph, ⟨subquery, member, own⟩, inGraph⟩
    exact ⟨subquery, member, (mem_getConsolidatedTriplets own).mp inGraph⟩
  · rintro ⟨subquery, member, built⟩
    obtain ⟨graph, own⟩ := exists_mapM_iff.mp ⟨data, all⟩ subquery member
    exact ⟨graph, ⟨subquery, member, own⟩,
      (mem_getConsolidatedTriplets own).mpr built⟩

end

/-- A solved pattern holds in a graph exactly when its triple is there. -/
theorem holdsIn_iff_mem
    {graph : Graph}
    {solution : Solution}
    {pattern : TriplePattern}
    (denotes : pattern.instantiate solution = some triple) :
    pattern.HoldsIn graph solution ↔ triple ∈ graph := by
  unfold TriplePattern.HoldsIn
  rw [denotes]
  simp

/-- The solution `x = x`, `y = y` of the backward query. -/
def backwardSolution : Solution := fun name =>
  if name = "x".toList then
    some (.resource (.iri "x".toList))
  else if name = "y".toList then
    some (.resource (.iri "y".toList))
  else
    none

end DistributedRdf.Distribution
