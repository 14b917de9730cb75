import ImpFront.Proofs.Syntax.Laid
import ImpFront.Syntax.Walk
/-!
# ImpFront.Proofs.Syntax.Nested

**Spans that go around tokens are nested.** Tokens stand one behind the other, so stretches around
disjoint rows of them do as well, and a row inside a row has its stretch inside
(`Laid.nested_of_mem`). In a nested tree, a walk enters nodes in the order of their starts and
leaves them in the order of their ends.
-/

namespace ImpFront

/-- Every token holds some of the source and stops before the next one starts. -/
structure Token.InOrder (ts : List Token) : Prop where
  proper : ∀ t ∈ ts, t.span.Proper
  apart : ts.Pairwise fun t u => t.span.Before u.span

namespace Token.InOrder

variable {t : Token} {ts us : List Token}

theorem of_append_right (h : InOrder (ts ++ us)) : InOrder us :=
  ⟨(List.forall_mem_append.1 h.proper).2, (List.pairwise_append.1 h.apart).2.1⟩

theorem of_cons (h : InOrder (t :: ts)) : InOrder ts :=
  ⟨(List.forall_mem_cons.1 h.proper).2, h.apart.of_cons⟩

end Token.InOrder

/-- The stretch around some tokens starts with one of them and stops with one. -/
theorem Span.exists_mem_around {ts : List Token} (h : ts ≠ []) :
    (∃ t ∈ ts, (around ts).start = t.span.start) ∧ ∃ t ∈ ts, (around ts).stop = t.span.stop := by
  constructor
  · obtain ⟨t, ts, rfl⟩ := List.exists_cons_of_ne_nil h
    exact ⟨t, List.mem_cons_self .., rfl⟩
  · refine ⟨ts.getLast h, List.getLast_mem h, ?_⟩
    simp [around, List.getLast?_eq_some_getLast h]

/-! ### From tokens to spans -/

namespace Laid

variable {ts : List Token} {ps : List Piece}

/-- The nodes among some pieces hold tokens of theirs and lie one behind the other. -/
theorem pairwise_before (h : Laid ts ps) (hts : Token.InOrder ts) :
    (ps.filterMap Piece.node?).Pairwise fun c d => c.span.Before d.span := by
  induction h with
  | nil => exact .nil
  | @mark t ts sign ps _ _ ih =>
    rw [List.filterMap_cons_none (Piece.node?_mark sign)]
    exact ih hts.of_cons
  | @node piece n own ts ps hnode hne hspan _ hrest _ ih =>
    rw [List.filterMap_cons_some hnode]
    refine List.pairwise_cons.2 ⟨fun d hd => ?_, ih hts.of_append_right⟩
    -- The last token of the node comes before the first one of the node behind it.
    obtain ⟨later, hlater, hd⟩ := List.mem_filterMap.1 hd
    obtain ⟨tokens, hwithin, hspans⟩ := hrest.exists_of_mem hlater hd
    obtain ⟨-, t, ht, hstop⟩ := Span.exists_mem_around hne
    obtain ⟨⟨u, hu, hstart⟩, -⟩ := Span.exists_mem_around hspans.ne_nil
    show n.span.stop.offset ≤ d.span.start.offset
    rw [hspan, hspans.span_eq, hstop, hstart]
    exact (List.pairwise_append.1 hts.apart).2.2 t ht u (hwithin.subset hu)

end Laid

/-! ### Order of a walk -/

namespace Node

variable {n m : Node}

theorem Nested.child (h : n.Nested) {c : Node} (hc : c ∈ n.children) : c.Nested :=
  fun m hm => h m (mem_preorder_of_child hc hm)

theorem Nested.partsInOrder (h : n.Nested) : n.PartsInOrder := h n n.self_mem_preorder

/-- What is below a node lies in it, and is proper if the node is. -/
theorem Nested.inside (h : n.Nested) (hn : n.span.Proper) (hm : m ∈ n.preorder) :
    m.span.Proper ∧ m.span.Inside n.span := by
  induction n using induct with
  | h n ih =>
    rw [preorder_eq] at hm
    rcases List.mem_cons.1 hm with rfl | hm
    · exact ⟨hn, Nat.le_refl _, Nat.le_refl _⟩
    · obtain ⟨c, hc, hm⟩ := List.mem_flatMap.1 hm
      obtain ⟨hproper, hstart, hstop⟩ := ih c hc (h.child hc) (h.partsInOrder.proper c hc) hm
      obtain ⟨hstart', hstop'⟩ := h.partsInOrder.inside c hc
      exact ⟨hproper, Nat.le_trans hstart' hstart, Nat.le_trans hstop hstop'⟩

/-- A walk enters the nodes of a tree in preorder. -/
theorem filterMap_entered?_walk (n : Node) : n.walk.filterMap Event.entered? = n.preorder := by
  induction n using induct with
  | h n ih =>
    have hchildren : n.children.flatMap (fun c => c.walk.filterMap Event.entered?)
        = n.children.flatMap preorder := List.flatMap_congr ih
    rw [walk_eq, preorder_eq, ← hchildren, ← List.filterMap_flatMap]
    simp [around, Event.entered?]

/-- A walk leaves the nodes of a tree in postorder. -/
theorem filterMap_left?_walk (n : Node) : n.walk.filterMap Event.left? = n.postorder := by
  induction n using induct with
  | h n ih =>
    have hchildren : n.children.flatMap (fun c => c.walk.filterMap Event.left?)
        = n.children.flatMap postorder := List.flatMap_congr ih
    rw [walk_eq, postorder_eq, ← hchildren, ← List.filterMap_flatMap]
    simp [around, List.filterMap_cons, Event.left?]

end Node

end ImpFront
