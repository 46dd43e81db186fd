import DistributedRdf.EntityUnification

namespace DistributedRdf.Distribution

open Sparql LastWrite

/-!
# When entity resolution preserves links

`merge_graphs` looks up the subject of a triple in the renaming and copies its
object.  A triple that points to a renamed country therefore still points to
the old name, under which no triples are left.  `preservesLinks_iff` states
which graphs hide this: those that hold, beside every such link, both what the
link should have become and another triple that becomes what it did become.
-/

/-- The renaming, extended by the identity. -/
def renamedNode (mapped : Mappings) (node : Resource) : Resource :=
  (mapped node).getD node

def renamedTerm (mapped : Mappings) : Term → Term
  | .resource node => .resource (renamedNode mapped node)
  | .literal text => .literal text

/-- The triple with both of its ends renamed. -/
def renamedLink (mapped : Mappings) (link : Triple) : Triple :=
  ⟨renamedNode mapped link.subject, link.predicate,
    renamedTerm mapped link.object⟩

/--
The merged graph consists of the triples of both graphs with subject and object
renamed.
-/
def PreservesLinks (similarity : Similarity) (g1 g2 : Graph) : Prop :=
  (∀ link, link ∈ g1 ∨ link ∈ g2 →
    renamedLink (mappings similarity g1 g2) link ∈
      mergeGraphs similarity g1 g2) ∧
  ∀ merged, merged ∈ mergeGraphs similarity g1 g2 →
    ∃ link, (link ∈ g1 ∨ link ∈ g2) ∧
      renamedLink (mappings similarity g1 g2) link = merged

/-- The last similar pair of a node gives it another name. -/
def ReplacedBy
    (similarity : Similarity)
    (g1 g2 : Graph)
    (node replacement : Resource) : Prop :=
  ∃ s1 s2, LastPair similarity g1 g2 s1 s2 ∧
    chooseReplacement s1 s2 = (node, replacement)

/-- The name under which a node's triples are filed. -/
def FiledUnder
    (similarity : Similarity)
    (g1 g2 : Graph)
    (node name : Resource) : Prop :=
  ReplacedBy similarity g1 g2 node name ∨
    name = node ∧ ∀ replacement, ¬ ReplacedBy similarity g1 g2 node replacement

/-- Two nodes end up under one name. -/
def FiledTogether
    (similarity : Similarity)
    (g1 g2 : Graph)
    (first second : Resource) : Prop :=
  ∃ name, FiledUnder similarity g1 g2 first name ∧
    FiledUnder similarity g1 g2 second name

/--
Every link to a country that is replaced has two companions with the same
predicate and a subject filed under the same name: one that points to the
replacement already, and one whose object is filed under the old name.
-/
def LinksAccompanied (similarity : Similarity) (g1 g2 : Graph) : Prop :=
  ∀ link, link ∈ g1 ∨ link ∈ g2 →
    ∀ entity replacement,
      link.object = .resource entity →
      ReplacedBy similarity g1 g2 entity replacement →
      replacement ≠ entity →
        (∃ companion, (companion ∈ g1 ∨ companion ∈ g2) ∧
          FiledTogether similarity g1 g2 companion.subject link.subject ∧
          companion.predicate = link.predicate ∧
          companion.object = .resource replacement) ∧
        ∃ companion former, (companion ∈ g1 ∨ companion ∈ g2) ∧
          FiledTogether similarity g1 g2 companion.subject link.subject ∧
          companion.predicate = link.predicate ∧
          companion.object = .resource former ∧
          FiledUnder similarity g1 g2 former entity

section Renaming

variable {similarity : Similarity} {g1 g2 : Graph}

theorem filedUnder_iff
    {node name : Resource} :
    FiledUnder similarity g1 g2 node name ↔
      renamedNode (mappings similarity g1 g2) node = name := by
  unfold FiledUnder ReplacedBy renamedNode
  simp only [← mappings_eq_some_iff]
  cases mapped : mappings similarity g1 g2 node with
  | none => simp [eq_comm]
  | some replacement => simp

theorem filedTogether_iff
    {first second : Resource} :
    FiledTogether similarity g1 g2 first second ↔
      renamedNode (mappings similarity g1 g2) first =
        renamedNode (mappings similarity g1 g2) second := by
  simp only [FiledTogether, filedUnder_iff]
  exact ⟨fun ⟨_, first, second⟩ => first.trans second.symm,
    fun same => ⟨_, same, rfl⟩⟩

variable {mapped : Mappings}

theorem renamedTerm_of_mapped
    {entity replacement : Resource}
    (found : mapped entity = some replacement) :
    renamedTerm mapped (.resource entity) = .resource replacement := by
  simp [renamedTerm, renamedNode, found]

/-- `merge_graphs` renames the subject alone. -/
theorem rename_eq
    (mapped : Mappings)
    (triple : Triple) :
    rename mapped triple =
      ⟨renamedNode mapped triple.subject, triple.predicate,
        triple.object⟩ := by
  unfold rename renamedNode
  cases mapped triple.subject <;> rfl

/-- A link whose object keeps its name is merged as it should be. -/
theorem rename_eq_renamedLink
    {link : Triple}
    (kept : renamedTerm mapped link.object = link.object) :
    rename mapped link = renamedLink mapped link := by
  rw [rename_eq, renamedLink, kept]

variable {object : Term}

theorem renamedTerm_ne_iff :
    renamedTerm mapped object ≠ object ↔
      ∃ entity replacement, object = .resource entity ∧
        mapped entity = some replacement ∧ replacement ≠ entity := by
  cases object with
  | literal text => simp [renamedTerm]
  | resource node =>
      cases found : mapped node <;> simp [renamedTerm, renamedNode, found]

theorem renamedTerm_eq_resource_iff
    {node : Resource} :
    renamedTerm mapped object = .resource node ↔
      ∃ former, object = .resource former ∧
        renamedNode mapped former = node := by
  cases object <;> simp [renamedTerm]

/-- A triple of either graph that is filed as the given one. -/
theorem mem_mergeGraphs_iff_fields
    {subject : Resource}
    {predicate : Text} :
    ⟨subject, predicate, object⟩ ∈ mergeGraphs similarity g1 g2 ↔
      ∃ original, (original ∈ g1 ∨ original ∈ g2) ∧
        renamedNode (mappings similarity g1 g2) original.subject = subject ∧
        original.predicate = predicate ∧ original.object = object := by
  simp only [mem_mergeGraphs, rename_eq, Triple.mk.injEq]

end Renaming

/--
The merged graph consists of the renamed links exactly when every link to a
replaced country has its companions.
-/
theorem preservesLinks_iff
    (similarity : Similarity)
    (g1 g2 : Graph) :
    PreservesLinks similarity g1 g2 ↔ LinksAccompanied similarity g1 g2 := by
  constructor
  · rintro ⟨kept, nothingElse⟩ link member entity replacement
      pointsTo replaced different
    have mapped := mappings_eq_some_iff.mpr replaced
    constructor
    · -- The renamed link is in the merged graph, so some triple became it.
      have present := kept link member
      rw [renamedLink, pointsTo, renamedTerm_of_mapped mapped,
        mem_mergeGraphs_iff_fields] at present
      rcases present with ⟨companion, inGraphs, filed, predicate, object⟩
      exact ⟨companion, inGraphs, filedTogether_iff.mpr filed, predicate,
        object⟩
    · -- The link with its old object is merged, so it has to be an image.
      have merged :
          rename (mappings similarity g1 g2) link ∈
            mergeGraphs similarity g1 g2 :=
        mem_mergeGraphs.mpr ⟨link, member, rfl⟩
      rcases nothingElse _ merged with ⟨companion, inGraphs, image⟩
      rw [rename_eq, renamedLink, Triple.mk.injEq, pointsTo,
        renamedTerm_eq_resource_iff] at image
      rcases image with ⟨filed, predicate, former, object, renamedTo⟩
      exact ⟨companion, former, inGraphs, filedTogether_iff.mpr filed,
        predicate, object, filedUnder_iff.mpr renamedTo⟩
  · intro accompanied
    constructor
    · intro link member
      by_cases kept :
          renamedTerm (mappings similarity g1 g2) link.object = link.object
      · rw [← rename_eq_renamedLink kept]
        exact mem_mergeGraphs.mpr ⟨link, member, rfl⟩
      · rcases renamedTerm_ne_iff.mp kept with
          ⟨entity, replacement, pointsTo, mapped, different⟩
        rcases (accompanied link member entity replacement pointsTo
          (mappings_eq_some_iff.mp mapped) different).1 with
          ⟨companion, inGraphs, filed, predicate, object⟩
        rw [renamedLink, pointsTo, renamedTerm_of_mapped mapped,
          mem_mergeGraphs_iff_fields]
        exact ⟨companion, inGraphs, filedTogether_iff.mp filed, predicate,
          object⟩
    · intro merged inMerged
      rcases mem_mergeGraphs.mp inMerged with ⟨link, member, rfl⟩
      by_cases kept :
          renamedTerm (mappings similarity g1 g2) link.object = link.object
      · exact ⟨link, member, (rename_eq_renamedLink kept).symm⟩
      · rcases renamedTerm_ne_iff.mp kept with
          ⟨entity, replacement, pointsTo, mapped, different⟩
        rcases (accompanied link member entity replacement pointsTo
          (mappings_eq_some_iff.mp mapped) different).2 with
          ⟨companion, former, inGraphs, filed, predicate, object, renamedTo⟩
        refine ⟨companion, inGraphs, ?_⟩
        rw [rename_eq, renamedLink, filedTogether_iff.mp filed, predicate,
          pointsTo, renamedTerm_eq_resource_iff.mpr
            ⟨former, object, filedUnder_iff.mp renamedTo⟩]

/-- A link to a Spain that was renamed is left without a target. -/
theorem not_preservesLinks_spain :
    ¬ ∀ (similarity : Similarity) (g1 g2 : Graph),
      PreservesLinks similarity g1 g2 := by
  intro preserves
  let link : Triple := ⟨.iri "http://a.org/madrid".toList,
    "capitalOf".toList, .resource (.iri "http://a.org/spain".toList)⟩
  have renamed := (preserves plainSimilarity
    [country "http://a.org/spain".toList, link]
    [country "http://b.org/spain".toList]).1 link (.inl (by simp))
  exact absurd renamed (by decide +kernel)

end DistributedRdf.Distribution
