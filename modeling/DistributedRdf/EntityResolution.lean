import Mathlib
import DistributedRdf.LastWriteDictionary
import DistributedRdf.QueryPartition

namespace DistributedRdf.Distribution

open Sparql LastWrite List

/-!
# Merging two graphs

`merge_graphs` compares every country of the first graph with every country of
the second and renames one of two similar ones to the other.  The renaming is a
dictionary that a nested loop fills, so the last similar pair that assigns a
key decides where the key's triples go.
-/

/--
What entity resolution calls outside of `distributed_rdf.py`: the lower case of
a text, and whether the result of `disambiguations.predicates(s=s1, o=s2)`
equals a text.  The graph library returns an iterator, which equals no text.
-/
structure Similarity where
  lower : Text → Text
  predicatesAre : Resource → Resource → Text → Bool

/-- A node is also the text of its IRI or label. -/
def nodeText : Resource → Text
  | .iri name => name
  | .blank label => label

/-- `needle in text` -/
def contains (needle text : Text) : Bool :=
  decide (needle <:+: text)

/-- `row[position]`; a negative position counts from the end. -/
def rowAt (row : List Nat) (position : Int) : Nat :=
  if position < 0 then
    row.getD (row.length + position).toNat 0
  else
    row.getD position.toNat 0

/-- One column of the inner loop of `levenshtein`. -/
def levenshteinCell
    [DecidableEq α]
    (seq1 seq2 : List α)
    (x : Nat)
    (oneago thisrow : List Nat)
    (y : Nat) : List Nat :=
  let delcost := rowAt oneago y + 1
  let addcost := rowAt thisrow (y - 1) + 1
  let subcost := rowAt oneago (y - 1) + if seq1[x]? ≠ seq2[y]? then 1 else 0
  thisrow.set y (min delcost (min addcost subcost))

/-- One row: `[0] * len(seq2) + [x + 1]`, filled column by column. -/
def levenshteinRow
    [DecidableEq α]
    (seq1 seq2 : List α)
    (oneago : List Nat)
    (x : Nat) : List Nat :=
  (range seq2.length).foldl (levenshteinCell seq1 seq2 x oneago)
    (replicate seq2.length 0 ++ [x + 1])

def levenshtein [DecidableEq α] (seq1 seq2 : List α) : Nat :=
  let thisrow :=
    (range seq1.length).foldl (levenshteinRow seq1 seq2)
      (range' 1 seq2.length ++ [0])
  rowAt thisrow (seq2.length - 1)

def getCountryName (subject : Resource) : Text :=
  let text := nodeText subject
  if contains ['#'] text then
    (splitOn ['#'] text).getLastD []
  else
    (splitOn ['/'] text).getLastD []

/-- Whether one of the two nodes is to replace the other. -/
def replace (similarity : Similarity) (s1 s2 : Resource) : Bool :=
  if similarity.predicatesAre s1 s2 "owl:sameAs".toList ||
      similarity.predicatesAre s2 s1 "owl:sameAs".toList then
    true
  else if similarity.predicatesAre s1 s2 "owl:differentFrom".toList ||
      similarity.predicatesAre s2 s1 "owl:differentFrom".toList then
    false
  else
    let seq1 := similarity.lower (getCountryName s1)
    let seq2 := similarity.lower (getCountryName s2)
    if contains seq1 seq2 then
      true
    else if contains seq2 seq1 then
      true
    else
      decide (levenshtein seq1 seq2 < 4)

variable (node : Resource)

def mentionsDbpedia : Bool :=
  contains "dbpedia".toList (nodeText node)

/-- The node to rename and its new name. -/
def chooseReplacement (s1 s2 : Resource) : Resource × Resource :=
  if mentionsDbpedia s1 then (s2, s1) else (s1, s2)

variable (graph : Graph)

def subjects (predicate : Text) (object : Term) :
    List Resource :=
  (graph.filter fun triple =>
    triple.predicate = predicate ∧ triple.object = object).map Triple.subject

/-- The subjects that `merge_graphs` compares. -/
def countries : List Resource :=
  subjects graph "rdf:type".toList (.resource (.iri "dbo:Country".toList))

abbrev Mappings := Dictionary Resource Resource

def mappings (similarity : Similarity) (g1 g2 : Graph) : Mappings :=
  (countries g1).foldl
    (fun mapped s1 =>
      (countries g2).foldl
        (fun mapped s2 =>
          if replace similarity s1 s2 then
            assign mapped (chooseReplacement s1 s2)
          else
            mapped)
        mapped)
    empty

variable (mapped : Mappings)

def rename (triple : Triple) : Triple :=
  match mapped triple.subject with
  | some replacement => ⟨replacement, triple.predicate, triple.object⟩
  | none => triple

/-- `merged_graph.add` of every triple of a graph, renamed. -/
def addRenamed (merged graph : Graph) : Graph :=
  graph.foldl (fun merged triple => merged.insert (rename mapped triple))
    merged

def mergeGraphs (similarity : Similarity) (g1 g2 : Graph) : Graph :=
  let mapped := mappings similarity g1 g2
  addRenamed mapped (addRenamed mapped [] g1) g2

/-!
## The renaming in terms of the similar pairs
-/

/-- The triple that makes a node a country. -/
def countryTriple : Triple :=
  ⟨node, "rdf:type".toList, .resource (.iri "dbo:Country".toList)⟩

variable {graph}

theorem mem_countries
    {node : Resource} :
    node ∈ countries graph ↔ countryTriple node ∈ graph := by
  simp only [countries, subjects, mem_map, mem_filter,
    decide_eq_true_eq, countryTriple]
  constructor
  · intro found
    rcases found with ⟨⟨subject, predicate, object⟩, ⟨member, rfl, rfl⟩, rfl⟩
    exact member
  · intro member
    exact ⟨_, ⟨member, rfl, rfl⟩, rfl⟩

theorem countries_append (first second : Graph) :
    countries (first ++ second) = countries first ++ countries second := by
  simp only [countries, subjects, filter_append, map_append]

theorem countries_countryTriple :
    countries [countryTriple node] = [node] := by
  simp only [countries, subjects, countryTriple, filter_cons, and_self,
    decide_true, if_true, filter_nil, map_cons, map_nil]

variable
  {triple : Triple}
  {mapped}

theorem mem_addRenamed
    {merged graph : Graph} :
    triple ∈ addRenamed mapped merged graph ↔
      triple ∈ merged ∨
        ∃ original, original ∈ graph ∧ rename mapped original = triple := by
  unfold addRenamed
  induction graph generalizing merged with
  | nil => simp
  | cons first rest hypothesis =>
      rw [foldl_cons, hypothesis, mem_insert_iff]
      simp only [mem_cons, exists_eq_or_imp]
      grind

variable
  {similarity : Similarity}
  {g1 g2 : Graph}

/-- A merged triple is a renamed triple of one of the two graphs. -/
theorem mem_mergeGraphs :
    triple ∈ mergeGraphs similarity g1 g2 ↔
      ∃ original, (original ∈ g1 ∨ original ∈ g2) ∧
        rename (mappings similarity g1 g2) original = triple := by
  simp only [mergeGraphs, mem_addRenamed, not_mem_nil, false_or,
    or_and_right, exists_or]

variable (similarity)

/-- The similar pairs of countries, in the order the loops visit them. -/
def similarPairs (g1 g2 : Graph) :
    List (Resource × Resource) :=
  ((countries g1).product (countries g2)).filter fun pair =>
    replace similarity pair.1 pair.2

def assignments (g1 g2 : Graph) :
    List (Resource × Resource) :=
  (similarPairs similarity g1 g2).map fun pair =>
    chooseReplacement pair.1 pair.2

variable {similarity}

theorem mem_similarPairs
    {s1 s2 : Resource} :
    (s1, s2) ∈ similarPairs similarity g1 g2 ↔
      s1 ∈ countries g1 ∧ s2 ∈ countries g2 ∧
        replace similarity s1 s2 = true := by
  simp [similarPairs, and_assoc]

/-- The nested loops fill the dictionary with the assignments in order. -/
theorem mappings_eq_fill
    (similarity : Similarity)
    (g1 g2 : Graph) :
    mappings similarity g1 g2 = fill (assignments similarity g1 g2) := by
  simp only [mappings, fill, assignments, similarPairs, foldl_map,
    foldl_filter, product, foldl_flatMap]

theorem mem_assignments
    {key replacement : Resource} :
    (key, replacement) ∈ assignments similarity g1 g2 ↔
      ∃ s1 s2, s1 ∈ countries g1 ∧ s2 ∈ countries g2 ∧
        replace similarity s1 s2 = true ∧
        chooseReplacement s1 s2 = (key, replacement) := by
  simp only [assignments, mem_map, Prod.exists, mem_similarPairs,
    and_assoc]

theorem chooseReplacement_eq_iff
    {s1 s2 key replacement : Resource} :
    chooseReplacement s1 s2 = (key, replacement) ↔
      (mentionsDbpedia s1 = true ∧ key = s2 ∧ replacement = s1) ∨
      (mentionsDbpedia s1 = false ∧ key = s1 ∧ replacement = s2) := by
  by_cases dbpedia : mentionsDbpedia s1 = true
  · simp [chooseReplacement, dbpedia, eq_comm]
  · simp [chooseReplacement, dbpedia, eq_comm]

end DistributedRdf.Distribution
