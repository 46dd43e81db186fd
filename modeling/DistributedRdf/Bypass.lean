import Mathlib.Logic.Relation

namespace DistributedRdf.Graphs

/-!
# Graphs with a node taken out

A node is taken out of a graph and its predecessors are joined to its
successors.  The other nodes are connected as before.
-/

variable
  {Node : Type}
  {edge : Node → Node → Prop}
  {node first last : Node}

/-- The edges when `node` is taken out -/
def Bypass
    (edge : Node → Node → Prop)
    (node first last : Node) : Prop :=
  first ≠ node ∧ last ≠ node ∧
    (edge first last ∨ edge first node ∧ edge node last)

theorem Bypass.transGen
    (bypass : Bypass edge node first last) :
    Relation.TransGen edge first last := by
  obtain ⟨-, -, direct | ⟨toNode, fromNode⟩⟩ := bypass
  · exact .single direct
  · exact .tail (.single toNode) fromNode

theorem transGen_of_bypass
    (path : Relation.TransGen (Bypass edge node) first last) :
    Relation.TransGen edge first last := by
  induction path with
  | single bypass => exact bypass.transGen
  | tail path bypass hypothesis => exact hypothesis.trans bypass.transGen

/-- Where a path has come to when it has been followed around `node` -/
theorem follow_bypass
    (notNode : first ≠ node)
    (path : Relation.TransGen edge first last) :
    (last ≠ node → Relation.TransGen (Bypass edge node) first last) ∧
      (last = node →
        ∃ before,
          before ≠ node ∧ edge before node ∧
            Relation.ReflTransGen (Bypass edge node) first before) := by
  induction path with
  | single direct =>
      constructor
      · intro lastNot
        exact .single ⟨notNode, lastNot, Or.inl direct⟩
      · rintro rfl
        exact ⟨first, notNode, direct, .refl⟩
  | @tail middle last path direct hypothesis =>
      by_cases atNode : middle = node
      · subst atNode
        obtain ⟨before, beforeNot, toNode, followed⟩ :=
          hypothesis.2 rfl
        constructor
        · intro lastNot
          exact .tail' followed
            ⟨beforeNot, lastNot, Or.inr ⟨toNode, direct⟩⟩
        · intro _
          exact ⟨before, beforeNot, toNode, followed⟩
      · have followed := hypothesis.1 atNode
        constructor
        · intro lastNot
          exact .tail followed ⟨atNode, lastNot, Or.inl direct⟩
        · rintro rfl
          exact ⟨middle, atNode, direct, followed.to_reflTransGen⟩

/-- The nodes that stay are connected as before. -/
theorem transGen_bypass_iff
    (firstNot : first ≠ node)
    (lastNot : last ≠ node) :
    Relation.TransGen (Bypass edge node) first last ↔
      Relation.TransGen edge first last :=
  ⟨transGen_of_bypass, fun path => (follow_bypass firstNot path).1 lastNot⟩

end DistributedRdf.Graphs
