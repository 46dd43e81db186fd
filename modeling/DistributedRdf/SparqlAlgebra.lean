import Mathlib.Data.List.Basic

namespace DistributedRdf.Sparql

open List

/-!
# RDF graphs and basic graph patterns

RDF terms, triples and graphs, and the fragment of the SPARQL algebra made of
basic graph patterns, `UNION`, `FILTER(isLiteral(..))` and `CONSTRUCT`.

Two readings of a query are given.  `evaluate` and `construct` compute the
answers of a query over a finite graph by backtracking.  `Group.SolvedBy` says
which variable assignments solve a group.  The main theorem `mem_construct`
states that both readings build the same triples.
-/

abbrev Text := List Char

inductive Resource where
  | iri (name : Text)
  | blank (label : Text)
  deriving DecidableEq

inductive Term where
  | resource (node : Resource)
  | literal (lexical : Text)
  deriving DecidableEq

/-- The SPARQL builtin `isLiteral`. -/
def Term.isLiteral : Term → Bool
  | .resource _ => false
  | .literal _ => true

/--
One RDF triple.  A literal subject and a predicate that is not an IRI cannot
be written down.
-/
structure Triple where
  subject : Resource
  predicate : Text
  object : Term
  deriving DecidableEq

/-- A finite RDF graph, read as the set of its triples. -/
abbrev Graph := List Triple

inductive PatternTerm where
  | var (name : Text)
  | term (value : Term)
  deriving DecidableEq

structure TriplePattern where
  subject : PatternTerm
  predicate : PatternTerm
  object : PatternTerm
  deriving DecidableEq

/-- A solution mapping: a partial assignment of terms to variables. -/
abbrev Solution := Text → Option Term

namespace PatternTerm

def value (solution : Solution) : PatternTerm → Option Term
  | .var name => solution name
  | .term value => some value

def vars : PatternTerm → List Text
  | .var name => [name]
  | .term _ => []

variable (solution : Solution)

@[simp] theorem value_var (name : Text) :
    (PatternTerm.var name).value solution = solution name :=
  rfl

@[simp] theorem value_term (term : Term) :
    (PatternTerm.term term).value solution = some term :=
  rfl

end PatternTerm

/-- Build a triple from three terms; ill-formed combinations build none. -/
def Triple.ofTerms : Term → Term → Term → Option Triple
  | .resource subject, .resource (.iri predicate), object =>
      some ⟨subject, predicate, object⟩
  | _, _, _ => none

def Triple.subjectTerm (triple : Triple) : Term :=
  .resource triple.subject

def Triple.predicateTerm (triple : Triple) : Term :=
  .resource (.iri triple.predicate)

variable {triple : Triple}

/-- `ofTerms` builds a triple exactly from that triple's own terms. -/
theorem Triple.ofTerms_eq_some
    {subject predicate object : Term} :
    Triple.ofTerms subject predicate object = some triple ↔
      subject = triple.subjectTerm ∧
        predicate = triple.predicateTerm ∧
        object = triple.object := by
  rcases triple with ⟨tripleSubject, triplePredicate, tripleObject⟩
  simp only [Triple.subjectTerm, Triple.predicateTerm]
  constructor
  · intro built
    unfold Triple.ofTerms at built
    split at built
    · simp only [Option.some.injEq, Triple.mk.injEq] at built
      obtain ⟨rfl, rfl, rfl⟩ := built
      exact ⟨rfl, rfl, rfl⟩
    · exact absurd built (by simp)
  · rintro ⟨rfl, rfl, rfl⟩
    rfl

namespace TriplePattern

/-- The triple a pattern denotes under a solution, if it denotes one. -/
def instantiate
    (solution : Solution)
    (pattern : TriplePattern) : Option Triple :=
  match pattern.subject.value solution,
      pattern.predicate.value solution,
      pattern.object.value solution with
  | some subject, some predicate, some object =>
      Triple.ofTerms subject predicate object
  | _, _, _ => none

def vars (pattern : TriplePattern) : List Text :=
  pattern.subject.vars ++ pattern.predicate.vars ++ pattern.object.vars

/-- A pattern denotes a triple exactly when its positions denote its terms. -/
theorem instantiate_eq_some
    {solution : Solution}
    {pattern : TriplePattern} :
    pattern.instantiate solution = some triple ↔
      pattern.subject.value solution = some triple.subjectTerm ∧
        pattern.predicate.value solution = some triple.predicateTerm ∧
        pattern.object.value solution = some triple.object := by
  unfold instantiate
  cases pattern.subject.value solution <;>
    cases pattern.predicate.value solution <;>
    cases pattern.object.value solution <;>
    simp [Triple.ofTerms_eq_some]

def HoldsIn
    (graph : Graph)
    (solution : Solution)
    (pattern : TriplePattern) : Prop :=
  ∃ triple, triple ∈ graph ∧ pattern.instantiate solution = some triple

end TriplePattern

/-- Every triple pattern of a basic graph pattern denotes a triple of the graph. -/
def SolvesPatterns
    (graph : Graph)
    (patterns : List TriplePattern)
    (solution : Solution) : Prop :=
  ∀ pattern, pattern ∈ patterns → pattern.HoldsIn graph solution

/--
A basic graph pattern with the variables its `FILTER(isLiteral(..))` clauses
name.
-/
structure Group where
  patterns : List TriplePattern
  literalFilters : List Text

def Group.SolvedBy
    (graph : Graph)
    (group : Group)
    (solution : Solution) : Prop :=
  SolvesPatterns graph group.patterns solution ∧
    ∀ name, name ∈ group.literalFilters →
      ∃ term, solution name = some term ∧ term.isLiteral = true

/-- A `CONSTRUCT` query with one template triple over a `UNION` of groups. -/
structure ConstructQuery where
  template : TriplePattern
  groups : List Group

/-- Template and filter variables occur in the patterns of every group. -/
def ConstructQuery.Safe (query : ConstructQuery) : Prop :=
  ∀ group, group ∈ query.groups →
    ∀ name, name ∈ query.template.vars ++ group.literalFilters →
      ∃ pattern, pattern ∈ group.patterns ∧ name ∈ pattern.vars

/-!
## Evaluation by backtracking
-/

/-- Variable bindings collected while matching, newest first. -/
abbrev Binding := List (Text × Term)

def Binding.solution (binding : Binding) : Solution :=
  fun name => binding.lookup name

def matchTerm
    (binding : Binding) :
    PatternTerm → Term → Option Binding
  | .term value, term => if value = term then some binding else none
  | .var name, term =>
      match binding.lookup name with
      | some bound => if bound = term then some binding else none
      | none => some ((name, term) :: binding)

def matchTriple
    (binding : Binding)
    (pattern : TriplePattern)
    (triple : Triple) : Option Binding :=
  (matchTerm binding pattern.subject triple.subjectTerm).bind fun first =>
    (matchTerm first pattern.predicate triple.predicateTerm).bind fun second =>
      matchTerm second pattern.object triple.object

/-- All extensions of a binding that match the patterns in the graph. -/
def evaluate
    (graph : Graph) :
    Binding → List TriplePattern → List Binding
  | binding, [] => [binding]
  | binding, pattern :: rest =>
      (graph.filterMap (matchTriple binding pattern)).flatMap fun extended =>
        evaluate graph extended rest

def Group.evaluate (graph : Graph) (group : Group) : List Binding :=
  (Sparql.evaluate graph [] group.patterns).filter fun binding =>
    group.literalFilters.all fun name =>
      (binding.solution name).any Term.isLiteral

/-- The triples a `CONSTRUCT` query builds over a graph. -/
def construct (graph : Graph) (query : ConstructQuery) : Graph :=
  (query.groups.flatMap fun group => group.evaluate graph).filterMap
    fun binding => query.template.instantiate binding.solution

/-- The solution extends every binding collected so far. -/
def Binding.Agrees (binding : Binding) (solution : Solution) : Prop :=
  ∀ name term, binding.solution name = some term → solution name = some term

theorem Binding.agrees_self (binding : Binding) :
    binding.Agrees binding.solution :=
  fun _ _ bound => bound

theorem Binding.agrees_nil (solution : Solution) :
    Binding.Agrees [] solution := by
  intro name term bound
  simp [Binding.solution] at bound

variable
  {binding extended : Binding}
  {position : PatternTerm}
  {term : Term}
  {solution : Solution}

/-- A successful position match records exactly the denoted term. -/
theorem matchTerm_sound
    (matched : matchTerm binding position term = some extended)
    (agrees : extended.Agrees solution) :
    binding.Agrees solution ∧ position.value solution = some term := by
  cases position with
  | term value =>
      simp only [matchTerm] at matched
      split at matched
      · rename_i same
        cases matched
        exact ⟨agrees, by simp [same]⟩
      · cases matched
  | var name =>
      simp only [matchTerm] at matched
      cases found : binding.lookup name with
      | some bound =>
          simp only [found] at matched
          split at matched
          · rename_i same
            cases matched
            refine ⟨agrees, ?_⟩
            rw [← same]
            exact agrees name bound found
          · cases matched
      | none =>
          simp only [found, Option.some.injEq] at matched
          subst extended
          refine ⟨?_, agrees name term (by simp [Binding.solution])⟩
          intro other value bound
          apply agrees other value
          have different : other ≠ name := by
            rintro rfl
            simp [Binding.solution, found] at bound
          simpa [Binding.solution, lookup_cons,
            beq_eq_false_iff_ne.mpr different] using bound

/-- A denoted term is always matched, without leaving the solution. -/
theorem matchTerm_complete
    (agrees : binding.Agrees solution)
    (denotes : position.value solution = some term) :
    ∃ extended,
      matchTerm binding position term = some extended ∧
        extended.Agrees solution := by
  cases position with
  | term value =>
      cases denotes
      exact ⟨binding, by simp [matchTerm], agrees⟩
  | var name =>
      cases found : binding.lookup name with
      | some bound =>
          have same : bound = term := by
            have value := agrees name bound found
            rw [PatternTerm.value_var] at denotes
            rw [denotes] at value
            exact (Option.some.inj value).symm
          exact ⟨binding, by simp [matchTerm, found, same], agrees⟩
      | none =>
          refine ⟨(name, term) :: binding, by simp [matchTerm, found], ?_⟩
          intro other value bound
          by_cases same : other = name
          · subst other
            simp only [Binding.solution, lookup_cons, beq_self_eq_true,
              Option.some.injEq] at bound
            rw [← bound]
            exact denotes
          · apply agrees other value
            simpa [Binding.solution, lookup_cons,
              beq_eq_false_iff_ne.mpr same] using bound

variable {name : Text}

/-- Matching binds the variables of the position and keeps earlier bindings. -/
theorem matchTerm_bound
    (matched : matchTerm binding position term = some extended)
    (known :
      name ∈ position.vars ∨ (binding.solution name).isSome = true) :
    (extended.solution name).isSome = true := by
  have denotes := matchTerm_sound matched (Binding.agrees_self extended)
  rcases known with occurs | bound
  · cases position with
    | term value => simp [PatternTerm.vars] at occurs
    | var own =>
        simp only [PatternTerm.vars, mem_singleton] at occurs
        subst own
        have value := denotes.2
        rw [PatternTerm.value_var] at value
        simp [value]
  · obtain ⟨value, bound⟩ := Option.isSome_iff_exists.mp bound
    simp [denotes.1 name value bound]

variable {pattern : TriplePattern}

theorem matchTriple_eq_some :
    matchTriple binding pattern triple = some extended ↔
      ∃ first second,
        matchTerm binding pattern.subject triple.subjectTerm = some first ∧
          matchTerm first pattern.predicate triple.predicateTerm =
            some second ∧
          matchTerm second pattern.object triple.object = some extended := by
  simp only [matchTriple, Option.bind_eq_some_iff]
  constructor
  · rintro ⟨first, subject, second, predicate, object⟩
    exact ⟨first, second, subject, predicate, object⟩
  · rintro ⟨first, second, subject, predicate, object⟩
    exact ⟨first, subject, second, predicate, object⟩

theorem matchTriple_sound
    (matched : matchTriple binding pattern triple = some extended)
    (agrees : extended.Agrees solution) :
    binding.Agrees solution ∧
      pattern.instantiate solution = some triple := by
  obtain ⟨first, second, subject, predicate, object⟩ :=
    matchTriple_eq_some.mp matched
  have objectSound := matchTerm_sound object agrees
  have predicateSound := matchTerm_sound predicate objectSound.1
  have subjectSound := matchTerm_sound subject predicateSound.1
  exact ⟨subjectSound.1,
    TriplePattern.instantiate_eq_some.mpr
      ⟨subjectSound.2, predicateSound.2, objectSound.2⟩⟩

theorem matchTriple_complete
    (agrees : binding.Agrees solution)
    (denotes : pattern.instantiate solution = some triple) :
    ∃ extended,
      matchTriple binding pattern triple = some extended ∧
        extended.Agrees solution := by
  obtain ⟨subject, predicate, object⟩ :=
    TriplePattern.instantiate_eq_some.mp denotes
  obtain ⟨first, subjectMatch, firstAgrees⟩ :=
    matchTerm_complete agrees subject
  obtain ⟨second, predicateMatch, secondAgrees⟩ :=
    matchTerm_complete firstAgrees predicate
  obtain ⟨extended, objectMatch, extendedAgrees⟩ :=
    matchTerm_complete secondAgrees object
  exact ⟨extended,
    matchTriple_eq_some.mpr
      ⟨first, second, subjectMatch, predicateMatch, objectMatch⟩,
    extendedAgrees⟩

theorem matchTriple_bound
    (matched : matchTriple binding pattern triple = some extended)
    (known :
      name ∈ pattern.vars ∨ (binding.solution name).isSome = true) :
    (extended.solution name).isSome = true := by
  obtain ⟨first, second, subject, predicate, object⟩ :=
    matchTriple_eq_some.mp matched
  simp only [TriplePattern.vars, mem_append] at known
  apply matchTerm_bound object
  rcases known with ((inSubject | inPredicate) | inObject) | bound
  · exact .inr (matchTerm_bound predicate
      (.inr (matchTerm_bound subject (.inl inSubject))))
  · exact .inr (matchTerm_bound predicate (.inl inPredicate))
  · exact .inl inObject
  · exact .inr (matchTerm_bound predicate
      (.inr (matchTerm_bound subject (.inr bound))))

variable
  {graph : Graph}
  {patterns : List TriplePattern}

/-- Every evaluated binding extends the given one and solves the patterns. -/
theorem evaluate_sound
    {binding final : Binding}
    (member : final ∈ evaluate graph binding patterns)
    (agrees : final.Agrees solution) :
    binding.Agrees solution ∧ SolvesPatterns graph patterns solution := by
  induction patterns generalizing binding with
  | nil =>
      simp only [evaluate, mem_singleton] at member
      subst final
      exact ⟨agrees, by simp [SolvesPatterns]⟩
  | cons pattern rest hypothesis =>
      simp only [evaluate, mem_flatMap, mem_filterMap] at member
      obtain ⟨extended, ⟨triple, inGraph, matched⟩, member⟩ := member
      obtain ⟨extendedAgrees, restSolved⟩ := hypothesis member
      obtain ⟨bindingAgrees, denotes⟩ :=
        matchTriple_sound matched extendedAgrees
      refine ⟨bindingAgrees, ?_⟩
      intro other otherMember
      rcases mem_cons.mp otherMember with isHead | inRest
      · subst other
        exact ⟨triple, inGraph, denotes⟩
      · exact restSolved other inRest

/-- Every solution of the patterns extends some evaluated binding. -/
theorem evaluate_complete
    (agrees : binding.Agrees solution)
    (solved : SolvesPatterns graph patterns solution) :
    ∃ final, final ∈ evaluate graph binding patterns ∧
      final.Agrees solution := by
  induction patterns generalizing binding with
  | nil => exact ⟨binding, by simp [evaluate], agrees⟩
  | cons pattern rest hypothesis =>
      obtain ⟨triple, inGraph, denotes⟩ := solved pattern (by simp)
      obtain ⟨extended, matched, extendedAgrees⟩ :=
        matchTriple_complete agrees denotes
      obtain ⟨final, member, finalAgrees⟩ :=
        hypothesis extendedAgrees
          (fun other inRest => solved other (by simp [inRest]))
      refine ⟨final, ?_, finalAgrees⟩
      simp only [evaluate, mem_flatMap, mem_filterMap]
      exact ⟨extended, ⟨triple, inGraph, matched⟩, member⟩

/-- Evaluation binds every variable of the patterns. -/
theorem evaluate_bound
    {binding final : Binding}
    (member : final ∈ evaluate graph binding patterns)
    (known :
      (∃ pattern, pattern ∈ patterns ∧ name ∈ pattern.vars) ∨
        (binding.solution name).isSome = true) :
    (final.solution name).isSome = true := by
  induction patterns generalizing binding with
  | nil =>
      simp only [evaluate, mem_singleton] at member
      subst final
      simpa using known
  | cons pattern rest hypothesis =>
      simp only [evaluate, mem_flatMap, mem_filterMap] at member
      obtain ⟨extended, ⟨triple, _, matched⟩, member⟩ := member
      apply hypothesis member
      rcases known with ⟨other, otherMember, occurs⟩ | bound
      · rcases mem_cons.mp otherMember with isHead | inRest
        · subst other
          exact .inr (matchTriple_bound matched (.inl occurs))
        · exact .inl ⟨other, inRest, occurs⟩
      · exact .inr (matchTriple_bound matched (.inr bound))

/-- Solutions that agree on the bound variables instantiate a template alike. -/
theorem instantiate_of_agrees
    {template : TriplePattern}
    (agrees : binding.Agrees solution)
    (bound :
      ∀ name, name ∈ template.vars →
        (binding.solution name).isSome = true) :
    template.instantiate binding.solution =
      template.instantiate solution := by
  have position
      {part : PatternTerm}
      (partBound :
        ∀ name, name ∈ part.vars →
          (binding.solution name).isSome = true) :
      part.value binding.solution = part.value solution := by
    cases part with
    | term value => rfl
    | var name =>
        obtain ⟨value, found⟩ := Option.isSome_iff_exists.mp
          (partBound name (by simp [PatternTerm.vars]))
        simp [found, agrees name value found]
  unfold TriplePattern.instantiate
  rw [position fun name occurs => bound name (by simp [TriplePattern.vars, occurs]),
    position fun name occurs => bound name (by simp [TriplePattern.vars, occurs]),
    position fun name occurs => bound name (by simp [TriplePattern.vars, occurs])]

/--
A safe `CONSTRUCT` query builds exactly the template instances of the
solutions of its groups.
-/
theorem mem_construct
    {query : ConstructQuery}
    (safe : query.Safe) :
    triple ∈ construct graph query ↔
      ∃ group, group ∈ query.groups ∧
        ∃ solution,
          group.SolvedBy graph solution ∧
            query.template.instantiate solution = some triple := by
  simp only [construct, mem_filterMap, mem_flatMap, Group.evaluate,
    mem_filter, all_eq_true]
  constructor
  · rintro ⟨binding, ⟨group, groupMember, member, filters⟩, built⟩
    refine ⟨group, groupMember, binding.solution,
      ⟨(evaluate_sound member (Binding.agrees_self binding)).2, ?_⟩, built⟩
    intro name occurs
    have literal := filters name occurs
    cases found : binding.solution name with
    | none => simp [found] at literal
    | some term => exact ⟨term, rfl, by simpa [found] using literal⟩
  · rintro ⟨group, groupMember, solution, ⟨solved, filters⟩, built⟩
    obtain ⟨final, member, agrees⟩ :=
      evaluate_complete (Binding.agrees_nil solution) solved
    have bound
        (name : Text)
        (occurs : name ∈ query.template.vars ++ group.literalFilters) :
        (final.solution name).isSome = true :=
      evaluate_bound member (.inl (safe group groupMember name occurs))
    refine ⟨final, ⟨group, groupMember, member, ?_⟩, ?_⟩
    · intro name occurs
      obtain ⟨term, value, literal⟩ := filters name occurs
      obtain ⟨own, found⟩ :=
        Option.isSome_iff_exists.mp (bound name (by simp [occurs]))
      have same : own = term := by
        have extended := agrees name own found
        rw [value] at extended
        exact (Option.some.inj extended).symm
      simp [found, same, literal]
    · rw [instantiate_of_agrees agrees
        fun name occurs => bound name (by simp [occurs])]
      exact built

end DistributedRdf.Sparql
