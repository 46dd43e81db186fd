import DistributedRdf.EntityResolution

namespace DistributedRdf.Distribution

open Sparql LastWrite List

/-!
# When entity resolution unifies, and when its result is determined

The renaming is not applied a second time: a node that replaces another one may
itself be renamed, and then the triples of one country stay under two subjects.
`unified_iff_noChain` lists the three shapes such a chain can take.

Graphs are unordered, so `mergeGraphs` may visit the same pairs in any order.
`orderIndependent_of_uniquePartners` states when the order does not matter.
-/

/-- The similar pair is the last one that renames its key. -/
def LastPair
    (similarity : Similarity)
    (g1 g2 : Graph)
    (s1 s2 : Resource) : Prop :=
  ∃ earlier later,
    similarPairs similarity g1 g2 = earlier ++ (s1, s2) :: later ∧
      ∀ pair, pair ∈ later →
        (chooseReplacement pair.1 pair.2).1 ≠ (chooseReplacement s1 s2).1

variable
  {similarity : Similarity}
  {g1 g2 : Graph}

/-- The renaming of a node is decided by the last pair that renames it. -/
theorem mappings_eq_some_iff
    {key replacement : Resource} :
    mappings similarity g1 g2 key = some replacement ↔
      ∃ s1 s2, LastPair similarity g1 g2 s1 s2 ∧
        chooseReplacement s1 s2 = (key, replacement) := by
  rw [mappings_eq_fill, fill_eq_some_iff]
  constructor
  · intro last
    rcases last with ⟨earlier, later, split, untouched⟩
    rcases map_eq_append_iff.mp split with
      ⟨pairsBefore, pairsFrom, pairsSplit, _, fromSplit⟩
    rcases map_eq_cons_iff.mp fromSplit with
      ⟨⟨s1, s2⟩, pairsAfter, rfl, chosen, rfl⟩
    refine ⟨s1, s2, ⟨pairsBefore, pairsAfter, pairsSplit, ?_⟩, chosen⟩
    intro pair member
    rw [chosen]
    exact untouched _ (mem_map_of_mem member)
  · intro decided
    rcases decided with ⟨s1, s2, ⟨earlier, later, split, untouched⟩, chosen⟩
    refine ⟨earlier.map fun pair => chooseReplacement pair.1 pair.2,
      later.map fun pair => chooseReplacement pair.1 pair.2, ?_, ?_⟩
    · simp [assignments, split, chosen]
    · intro entry member
      rcases mem_map.mp member with ⟨pair, inLater, rfl⟩
      rw [chosen] at untouched
      exact untouched pair inLater

/-!
## Chains of replacements
-/

/-- No replacement is itself a key with another replacement. -/
def ReplacementsFinal (mapped : Mappings) : Prop :=
  ∀ key replacement, mapped key = some replacement →
    ∀ other, mapped replacement = some other → other = replacement

variable (similarity)

/--
No merged triple has a subject that the call replaced by another node, and no
replacement is a key with another replacement.
-/
def Unified (g1 g2 : Graph) : Prop :=
  (∀ triple, triple ∈ mergeGraphs similarity g1 g2 →
    ∀ replacement,
      mappings similarity g1 g2 triple.subject = some replacement →
        replacement = triple.subject) ∧
  ReplacementsFinal (mappings similarity g1 g2)

/--
The three chains `source → middle → target` that the loops can build.  The
middle node is the second component of the pair that renames the source, or,
when it is a country of both graphs, the first component of one of the pairs.
-/
structure NoChain (g1 g2 : Graph) : Prop where
  throughSecond :
    ∀ source middle target,
      mentionsDbpedia source = false →
      LastPair similarity g1 g2 source middle →
      mentionsDbpedia target = true →
      LastPair similarity g1 g2 target middle →
        target = middle
  throughPlain :
    ∀ source middle target,
      mentionsDbpedia source = false →
      LastPair similarity g1 g2 source middle →
      mentionsDbpedia middle = false →
      LastPair similarity g1 g2 middle target →
        target = middle
  throughDbpedia :
    ∀ source middle target,
      mentionsDbpedia middle = true →
      LastPair similarity g1 g2 middle source →
      mentionsDbpedia target = true →
      LastPair similarity g1 g2 target middle →
        target = middle

variable {similarity}

theorem replacementsFinal_iff_noChain :
    ReplacementsFinal (mappings similarity g1 g2) ↔
      NoChain similarity g1 g2 := by
  have mapsPlain
      {s1 s2 : Resource}
      (plain : mentionsDbpedia s1 = false)
      (last : LastPair similarity g1 g2 s1 s2) :
      mappings similarity g1 g2 s1 = some s2 :=
    mappings_eq_some_iff.mpr ⟨s1, s2, last,
      chooseReplacement_eq_iff.mpr (.inr ⟨plain, rfl, rfl⟩)⟩
  have mapsDbpedia
      {s1 s2 : Resource}
      (dbpedia : mentionsDbpedia s1 = true)
      (last : LastPair similarity g1 g2 s1 s2) :
      mappings similarity g1 g2 s2 = some s1 :=
    mappings_eq_some_iff.mpr ⟨s1, s2, last,
      chooseReplacement_eq_iff.mpr (.inl ⟨dbpedia, rfl, rfl⟩)⟩
  constructor
  · intro final
    refine ⟨?_, ?_, ?_⟩
    · intro source middle target plain first dbpedia second
      exact final source middle (mapsPlain plain first) target
        (mapsDbpedia dbpedia second)
    · intro source middle target plain first middlePlain second
      exact final source middle (mapsPlain plain first) target
        (mapsPlain middlePlain second)
    · intro source middle target middleDbpedia first dbpedia second
      exact final source middle (mapsDbpedia middleDbpedia first) target
        (mapsDbpedia dbpedia second)
  · intro noChain key replacement mapped other mappedAgain
    rcases mappings_eq_some_iff.mp mapped with ⟨s1, s2, first, chosen⟩
    rcases mappings_eq_some_iff.mp mappedAgain with
      ⟨t1, t2, second, chosenAgain⟩
    rcases chooseReplacement_eq_iff.mp chosen with
      ⟨dbpedia, rfl, rfl⟩ | ⟨plain, rfl, rfl⟩
    · rcases chooseReplacement_eq_iff.mp chosenAgain with
        ⟨targetDbpedia, rfl, rfl⟩ | ⟨middlePlain, rfl, rfl⟩
      · exact noChain.throughDbpedia _ _ _ dbpedia first targetDbpedia second
      · -- The middle node cannot both mention and not mention dbpedia.
        rw [dbpedia] at middlePlain
        exact absurd middlePlain (by simp)
    · rcases chooseReplacement_eq_iff.mp chosenAgain with
        ⟨targetDbpedia, rfl, rfl⟩ | ⟨middlePlain, rfl, rfl⟩
      · exact noChain.throughSecond _ _ _ plain first targetDbpedia second
      · exact noChain.throughPlain _ _ _ plain first middlePlain second

variable
  {mapped : Mappings}
  {triple : Triple}

@[simp] theorem rename_of_mapped
    {replacement : Resource}
    (found : mapped triple.subject = some replacement) :
    rename mapped triple =
      ⟨replacement, triple.predicate, triple.object⟩ := by
  simp [rename, found]

@[simp] theorem rename_of_unmapped
    (absent : mapped triple.subject = none) :
    rename mapped triple = triple := by
  simp [rename, absent]

theorem unified_iff_replacementsFinal :
    Unified similarity g1 g2 ↔
      ReplacementsFinal (mappings similarity g1 g2) := by
  constructor
  · intro unified
    exact unified.2
  · intro final
    refine ⟨?_, final⟩
    intro triple member replacement mapped
    rcases mem_mergeGraphs.mp member with ⟨original, _, renamed⟩
    cases found : mappings similarity g1 g2 original.subject with
    | none =>
        rw [rename_of_unmapped found] at renamed
        subst original
        rw [found] at mapped
        exact absurd mapped (by simp)
    | some middle =>
        rw [rename_of_mapped found] at renamed
        subst triple
        exact final original.subject middle found replacement mapped

/-- Entity resolution unifies exactly when the loops build no chain. -/
theorem unified_iff_noChain
    (similarity : Similarity)
    (g1 g2 : Graph) :
    Unified similarity g1 g2 ↔ NoChain similarity g1 g2 :=
  unified_iff_replacementsFinal.trans replacementsFinal_iff_noChain

def country (name : Text) : Triple :=
  countryTriple (.iri name)

/-- The graph library's iterators equal no text; the names are lower case. -/
def plainSimilarity : Similarity where
  lower := id
  predicatesAre := fun _ _ _ => false

/-- `spain` is renamed to the second graph's node, which is renamed too. -/
theorem not_unified_spain :
    ¬ ∀ g1 g2 : Graph, Unified plainSimilarity g1 g2 := by
  intro unified
  have renamed :
      mappings plainSimilarity
          [country "http://a.org/spain".toList,
            country "http://dbpedia.org/spain".toList]
          [country "http://b.org/spain".toList]
          (.iri "http://b.org/spain".toList) =
        some (.iri "http://dbpedia.org/spain".toList) := by
    decide +kernel
  have member :
      country "http://b.org/spain".toList ∈
        mergeGraphs plainSimilarity
          [country "http://a.org/spain".toList,
            country "http://dbpedia.org/spain".toList]
          [country "http://b.org/spain".toList] := by
    decide +kernel
  have same := (unified _ _).1 _ member _ renamed
  exact absurd same (by decide +kernel)

/-!
## Order of enumeration
-/

/-- No node has two different candidate replacements. -/
def UniquePartners (similarity : Similarity) (g1 g2 : Graph) : Prop :=
  ∀ s1 s2 t1 t2,
    s1 ∈ countries g1 → s2 ∈ countries g2 → replace similarity s1 s2 = true →
    t1 ∈ countries g1 → t2 ∈ countries g2 → replace similarity t1 t2 = true →
    (chooseReplacement s1 s2).1 = (chooseReplacement t1 t2).1 →
      (chooseReplacement s1 s2).2 = (chooseReplacement t1 t2).2

theorem uniqueValues_assignments
    (unique : UniquePartners similarity g1 g2) :
    UniqueValues (assignments similarity g1 g2) := by
  intro key first second firstMember secondMember
  rcases mem_assignments.mp firstMember with
    ⟨s1, s2, s1Member, s2Member, similar, chosen⟩
  rcases mem_assignments.mp secondMember with
    ⟨t1, t2, t1Member, t2Member, similarAgain, chosenAgain⟩
  have sameValue := unique s1 s2 t1 t2 s1Member s2Member similar
    t1Member t2Member similarAgain (by rw [chosen, chosenAgain])
  rwa [chosen, chosenAgain] at sameValue

theorem mappings_congr
    {g1 g2 o1 o2 : Graph}
    (firstReordered : g1.Perm o1)
    (secondReordered : g2.Perm o2)
    (unique : UniquePartners similarity g1 g2) :
    mappings similarity o1 o2 = mappings similarity g1 g2 := by
  rw [mappings_eq_fill, mappings_eq_fill]
  apply fill_congr (uniqueValues_assignments unique)
  intro entry
  rcases entry with ⟨key, replacement⟩
  simp only [mem_assignments, mem_countries, firstReordered.mem_iff,
    secondReordered.mem_iff]

/-- Some order of a graph visits the given country last. -/
theorem exists_perm_countries_concat
    {graph : Graph}
    {node : Resource}
    (member : node ∈ countries graph) :
    ∃ reordered rest : Graph, graph.Perm reordered ∧
      countries reordered = countries rest ++ [node] := by
  refine ⟨graph.erase (countryTriple node) ++ [countryTriple node],
    graph.erase (countryTriple node), ?_, ?_⟩
  · exact (perm_cons_erase (mem_countries.mp member)).trans
      (perm_append_singleton _ _).symm
  · rw [countries_append, countries_countryTriple]

/-- Some order of the graphs makes a similar pair decide its key. -/
theorem exists_perm_mappings_eq_some
    {s1 s2 : Resource}
    (first : s1 ∈ countries g1)
    (second : s2 ∈ countries g2)
    (similar : replace similarity s1 s2 = true) :
    ∃ o1 o2 : Graph, g1.Perm o1 ∧ g2.Perm o2 ∧
      mappings similarity o1 o2 (chooseReplacement s1 s2).1 =
        some (chooseReplacement s1 s2).2 := by
  rcases exists_perm_countries_concat first with
    ⟨o1, rest1, firstReordered, firstSplit⟩
  rcases exists_perm_countries_concat second with
    ⟨o2, rest2, secondReordered, secondSplit⟩
  have last :
      ∃ earlier, similarPairs similarity o1 o2 = earlier ++ [(s1, s2)] := by
    simp only [similarPairs, product, firstSplit, secondSplit,
      flatMap_append, flatMap_singleton, map_append,
      map_cons, map_nil, filter_append, ← append_assoc]
    rw [filter_singleton, similar, cond_true]
    exact ⟨_, rfl⟩
  rcases last with ⟨earlier, split⟩
  refine ⟨o1, o2, firstReordered, secondReordered, ?_⟩
  exact mappings_eq_some_iff.mpr
    ⟨s1, s2, ⟨earlier, [], split, by simp⟩, rfl⟩

/--
The renaming is the same for every order of enumeration exactly when no node
has two candidate replacements, and then so is the merged graph.
-/
theorem orderIndependent_iff_uniquePartners
    (similarity : Similarity)
    (g1 g2 : Graph) :
    ((∀ o1 o2 : Graph, g1.Perm o1 → g2.Perm o2 →
        mappings similarity o1 o2 = mappings similarity g1 g2) ↔
      UniquePartners similarity g1 g2) ∧
    (UniquePartners similarity g1 g2 →
      ∀ o1 o2 : Graph, g1.Perm o1 → g2.Perm o2 →
        ∀ triple, triple ∈ mergeGraphs similarity o1 o2 ↔
          triple ∈ mergeGraphs similarity g1 g2) := by
  refine ⟨⟨?_, ?_⟩, ?_⟩
  · intro determined s1 s2 t1 t2 s1Member s2Member similar
      t1Member t2Member similarAgain sameKey
    rcases exists_perm_mappings_eq_some s1Member s2Member similar with
      ⟨o1, o2, firstReordered, secondReordered, decided⟩
    rcases exists_perm_mappings_eq_some t1Member t2Member similarAgain with
      ⟨q1, q2, firstReorderedAgain, secondReorderedAgain, decidedAgain⟩
    rw [determined o1 o2 firstReordered secondReordered, sameKey] at decided
    rw [determined q1 q2 firstReorderedAgain secondReorderedAgain]
      at decidedAgain
    exact Option.some.inj (decided.symm.trans decidedAgain)
  · intro unique o1 o2 firstReordered secondReordered
    exact mappings_congr firstReordered secondReordered unique
  · intro unique o1 o2 firstReordered secondReordered triple
    rw [mem_mergeGraphs, mem_mergeGraphs,
      mappings_congr firstReordered secondReordered unique]
    simp only [firstReordered.mem_iff, secondReordered.mem_iff]

/-- With two similar countries in the second graph the last one wins. -/
theorem not_orderIndependent_spain :
    ¬ ∀ g1 g2 o1 o2 : Graph, g1.Perm o1 → g2.Perm o2 →
      ∀ triple, triple ∈ mergeGraphs plainSimilarity o1 o2 ↔
        triple ∈ mergeGraphs plainSimilarity g1 g2 := by
  intro determined
  let spain : Triple := ⟨.iri "http://a.org/spain".toList,
    "capital".toList, .literal "madrid".toList⟩
  have same := determined
    [country "http://a.org/spain".toList, spain]
    [country "http://b.org/spain".toList, country "http://c.org/spain".toList]
    [country "http://a.org/spain".toList, spain]
    [country "http://c.org/spain".toList, country "http://b.org/spain".toList]
    (List.Perm.refl _) (List.Perm.swap _ _ _)
    ⟨.iri "http://b.org/spain".toList, "capital".toList,
      .literal "madrid".toList⟩
  exact absurd same (by decide +kernel)

end DistributedRdf.Distribution
