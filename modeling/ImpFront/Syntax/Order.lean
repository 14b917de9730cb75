import ImpFront.Syntax.Node
/-!
# ImpFront.Syntax.Order

The **orders of the nodes of a tree**, from `Node.children` alone: every node
before its parts, every node after its parts, and the height of the tree.
-/

namespace ImpFront.Node

/-- A part is smaller than what it is part of. -/
theorem sizeOf_lt_of_mem_children {n c : Node} (h : c ∈ n.children) : sizeOf c < sizeOf n := by
  unfold children at h
  split at h
  · obtain ⟨item, hitem, rfl⟩ := List.mem_map.1 h
    have hlt := List.sizeOf_lt_of_mem hitem
    rename_i p
    cases p
    cases item <;> simp [Item.node] at hlt ⊢ <;> omega
  · rename_i f
    cases f
    rcases List.mem_append.1 h with hp | hb
    · obtain ⟨q, hq, rfl⟩ := List.mem_map.1 hp
      have hlt := List.sizeOf_lt_of_mem hq
      simp at hlt ⊢; omega
    · obtain rfl := List.mem_singleton.1 hb
      simp; omega
  · simp at h
  · rename_i b
    cases b
    obtain ⟨s, hs, rfl⟩ := List.mem_map.1 h
    have hlt := List.sizeOf_lt_of_mem hs
    simp at hlt ⊢; omega
  · split at h
    · rename_i d
      cases d with
      | mk type name value span => cases value <;> simp at h; subst h; simp; omega
    · simp at h; subst h; simp; omega
    · simp at h
    · rename_i condition body otherwise span
      cases otherwise <;> simp at h
      · rcases h with rfl | rfl <;> simp <;> omega
      · rcases h with rfl | rfl | rfl <;> simp <;> omega
    · rename_i span
      cases span
      simp at h
      rcases h with rfl | rfl | rfl | rfl <;> simp <;> omega
    · simp at h
      rcases h with rfl | rfl <;> simp <;> omega
    · rename_i value span
      cases value <;> simp at h; subst h; simp; omega
    · rename_i call span
      cases call
      simp at h; subst h; simp [Call.toExpr]; omega
  · split at h
    · simp at h
    · simp at h
    · simp at h
    · simp at h; subst h; simp; omega
    · simp at h; subst h; simp; omega
    · simp at h; subst h; simp; omega
    · simp at h; rcases h with rfl | rfl <;> simp <;> omega
    · obtain ⟨e, he, rfl⟩ := List.mem_map.1 h
      have hlt := List.sizeOf_lt_of_mem he
      simp at hlt ⊢; omega

/-- A node, then the nodes below it. -/
def preorder (n : Node) : List Node :=
  n :: n.children.attach.flatMap fun ⟨c, _⟩ => preorder c
termination_by sizeOf n
decreasing_by exact sizeOf_lt_of_mem_children ‹_›

/-- The nodes below a node, then the node. -/
def postorder (n : Node) : List Node :=
  (n.children.attach.flatMap fun ⟨c, _⟩ => postorder c) ++ [n]
termination_by sizeOf n
decreasing_by exact sizeOf_lt_of_mem_children ‹_›

/-- The number of nodes on the longest way down from a node, itself included. -/
def height (n : Node) : Nat :=
  1 + (n.children.attach.map fun ⟨c, _⟩ => height c).foldr max 0
termination_by sizeOf n
decreasing_by exact sizeOf_lt_of_mem_children ‹_›

/-! ### Laws -/

theorem preorder_eq (n : Node) : n.preorder = n :: n.children.flatMap preorder := by
  rw [preorder, List.flatMap_subtype (g := preorder) fun _ _ => rfl, List.unattach_attach]

theorem postorder_eq (n : Node) : n.postorder = n.children.flatMap postorder ++ [n] := by
  rw [postorder, List.flatMap_subtype (g := postorder) fun _ _ => rfl, List.unattach_attach]

theorem height_eq (n : Node) : n.height = 1 + (n.children.map height).foldr max 0 := by
  rw [height, List.map_subtype (g := height) fun _ _ => rfl, List.unattach_attach]

end ImpFront.Node
