import ImpFront.Proofs.Syntax.Members
import ImpFront.Proofs.Syntax.Runs
import ImpFront.Proofs.Syntax.Signs
import ImpFront.Syntax.Layout
/-!
# ImpFront.Proofs.Syntax.Laid

**What laid out tokens tell of a tree.** The pieces of a node hold its signs and its children
(`Node.signs_eq_pieces`, `Node.children_eq_pieces`), so tokens that are laid out say what the tree
says, and every node below has tokens of its own among them.
-/

namespace ImpFront

/-! ### Spans around tokens -/

theorem Span.around_append {ts us : List Token} (hts : ts ≠ []) (hus : us ≠ []) :
    around (ts ++ us) = ⟨(around ts).start, (around us).stop⟩ := by
  obtain ⟨t, ts, rfl⟩ := List.exists_cons_of_ne_nil hts
  obtain ⟨u, us, rfl⟩ := List.exists_cons_of_ne_nil hus
  have hlast : (t :: (ts ++ u :: us)).getLast? = (u :: us).getLast? := by
    rw [← List.cons_append, List.getLast?_append_of_ne_nil _ (List.cons_ne_nil u us)]
  simp [around, hlast]

/-! ### Signs and children in pieces -/

/-- The signs of a node. -/
def Node.signs : Node → List Sign
  | program p => p.signs
  | function f => f.signs
  | parameter p => p.signs
  | block b => b.signs
  | statement s => s.signs
  | expr e => e.signs

namespace Piece

/-- The signs of a piece. -/
def signs : Piece → List Sign
  | mark sign => [sign]
  | part n => n.signs
  | clause u => u.signs

@[simp] theorem signs_fixed (k : Kind) : (fixed k).signs = [.fixed k] := rfl

@[simp] theorem signs_name (text : String) : (name text).signs = [.name text] := rfl

@[simp] theorem signs_mark (sign : Sign) : (mark sign).signs = [sign] := rfl

@[simp] theorem signs_clause (u : Update) : (clause u).signs = u.signs := rfl

@[simp] theorem signs_part (n : Node) : (part n).signs = n.signs := rfl

@[simp] theorem node?_fixed (k : Kind) : (fixed k).node? = none := rfl

@[simp] theorem node?_name (text : String) : (name text).node? = none := rfl

@[simp] theorem node?_mark (sign : Sign) : (mark sign).node? = none := rfl

@[simp] theorem node?_part (n : Node) : (part n).node? = some n := rfl

theorem flatMap_signs_separate (ns : List Node) :
    (separate ns).flatMap signs = Sign.separate (.fixed .comma) (ns.map Node.signs) := by
  cases ns with
  | nil => rfl
  | cons first others =>
    simp [separate, Sign.separate_cons, List.flatMap_assoc, List.flatMap_map]

theorem filterMap_node?_separate (ns : List Node) : (separate ns).filterMap node? = ns := by
  cases ns with
  | nil => rfl
  | cons first others =>
    have hothers : (others.flatMap fun n => [fixed .comma, part n]).filterMap node? = others := by
      induction others with
      | nil => rfl
      | cons n others ih => simp [List.filterMap_cons, ih]
    simp [separate, hothers]

theorem filterMap_node?_map_part {α : Type} (f : α → Node) (as : List α) :
    (as.map fun a => part (f a)).filterMap node? = as.map f := by
  rw [List.filterMap_map, ← List.filterMap_eq_map]
  rfl

end Piece

theorem Expr.signsList_eq_separate (es : List Expr) :
    signsList es = Sign.separate (.fixed .comma) (es.map signs) := by
  cases es with
  | nil => rfl
  | cons e rest => rw [signsList_cons, List.map_cons, Sign.separate_cons, List.flatMap_map]

theorem Expr.signs_eq_pieces (e : Expr) : e.signs = e.pieces.flatMap Piece.signs := by
  cases e with
  | call callee arguments span =>
    simp [signs, pieces, Piece.flatMap_signs_separate, signsList_eq_separate, Function.comp_def,
      Node.signs]
  | _ => simp [signs, pieces, Node.signs]

theorem Declaration.signs_eq_pieces (d : Declaration) : d.signs = d.pieces.flatMap Piece.signs := by
  obtain ⟨type, name, value, span⟩ := d
  cases value <;> simp [signs, pieces, Node.signs]

theorem Update.signs_eq_pieces (u : Update) : u.signs = u.pieces.flatMap Piece.signs := by
  cases u with
  | assign name op value span => simp [signs, pieces, Node.signs]
  | step name op side span => cases side <;> simp [signs, pieces]

theorem Statement.signs_eq_pieces (s : Statement) : s.signs = s.pieces.flatMap Piece.signs := by
  cases s with
  | declare d => exact d.signs_eq_pieces
  | update u => simp [signs, pieces, u.signs_eq_pieces]
  | ifElse condition body otherwise span =>
    cases otherwise <;> simp [signs, pieces, Node.signs]
  | forLoop init condition step body span =>
    simp [signs, pieces, Node.signs]
  | whileLoop condition body span => simp [signs, pieces, Node.signs]
  | ret value span => cases value <;> simp [signs, pieces, Node.signs]
  | call c span => simp [signs, pieces, Node.signs, Call.signs]

namespace Node

/-- The signs of a node are those of its pieces. -/
theorem signs_eq_pieces (n : Node) : n.signs = n.pieces.flatMap Piece.signs := by
  cases n with
  | program p =>
    have hitem : Item.signs = fun item => item.node.signs := by
      funext item
      cases item <;> rfl
    rw [signs, pieces, Program.signs, Program.pieces, List.flatMap_map, hitem]
    rfl
  | function f =>
    simp [signs, pieces, Function.signs, Function.pieces, Piece.flatMap_signs_separate,
      Function.comp_def]
  | parameter p => rfl
  | block b =>
    obtain ⟨body, span⟩ := b
    simp [signs, pieces, Block.signs, Block.pieces, Statement.signsList_eq_flatMap,
      List.flatMap_map]
  | statement s => exact s.signs_eq_pieces
  | expr e => exact e.signs_eq_pieces

/-- The children of a node are the nodes among its pieces. -/
theorem children_eq_pieces (n : Node) : n.children = n.pieces.filterMap Piece.node? := by
  cases n with
  | program p => exact (Piece.filterMap_node?_map_part Item.node p.items).symm
  | function f =>
    simp [children, pieces, Function.pieces, List.filterMap_cons, Piece.filterMap_node?_separate]
  | parameter p => rfl
  | block b =>
    rw [children, pieces, Block.pieces, List.cons_append,
      List.filterMap_cons_none (Piece.node?_fixed .openCurly), List.filterMap_append,
      Piece.filterMap_node?_map_part, List.filterMap_cons_none (Piece.node?_fixed .closeCurly),
      List.filterMap_nil, List.append_nil]
  | statement s =>
    cases s with
    | declare d =>
      obtain ⟨type, name, value, span⟩ := d
      cases value <;> rfl
    | update u =>
      cases u with
      | assign name op value span => rfl
      | step name op side span => cases side <;> rfl
    | ifElse condition body otherwise span => cases otherwise <;> rfl
    | ret value span => cases value <;> rfl
    | _ => rfl
  | expr e =>
    cases e with
    | call callee arguments span =>
      simp [children, pieces, Expr.pieces, List.filterMap_cons, Piece.filterMap_node?_separate]
    | _ => rfl

/-- A node below another one is among the pieces of a node. -/
theorem exists_piece {n c : Node} (h : c ∈ n.preorder) (hne : c ≠ n) :
    ∃ m ∈ n.preorder, ∃ piece ∈ m.pieces, piece.node? = some c := by
  induction n using induct with
  | h n ih =>
    rw [preorder_eq] at h
    obtain ⟨d, hd, hc⟩ := List.mem_flatMap.1 ((List.mem_cons.1 h).resolve_left hne)
    by_cases heq : c = d
    · rw [← heq, children_eq_pieces] at hd
      obtain ⟨piece, hpiece, hnode⟩ := List.mem_filterMap.1 hd
      exact ⟨n, n.self_mem_preorder, piece, hpiece, hnode⟩
    · obtain ⟨m, hm, hpiece⟩ := ih d hd hc heq
      exact ⟨m, mem_preorder_of_child hd hm, hpiece⟩

end Node

/-- A node among some pieces has the children that stand inside its piece. -/
theorem Piece.filterMap_node?_inner {piece : Piece} {n : Node} (h : piece.node? = some n) :
    piece.inner.filterMap node? = n.children := by
  cases piece with
  | mark sign => cases h
  | part m =>
    obtain rfl := Option.some.inj h
    exact m.children_eq_pieces.symm
  | clause u =>
    obtain rfl := Option.some.inj h
    rw [Node.children_eq_pieces]
    simp [inner, Node.pieces, Statement.pieces]

/-- A node among some pieces has the signs that stand inside its piece. -/
theorem Piece.flatMap_signs_inner {piece : Piece} {n : Node} (h : piece.node? = some n) :
    piece.inner.flatMap signs = piece.signs := by
  cases piece with
  | mark sign => cases h
  | part m => exact m.signs_eq_pieces.symm
  | clause u => exact u.signs_eq_pieces.symm

/-! ### Laid out tokens -/

namespace Laid

variable {ts us : List Token} {ps qs : List Piece}

theorem append (h : Laid ts ps) (h' : Laid us qs) : Laid (ts ++ us) (ps ++ qs) := by
  induction h with
  | nil => exact h'
  | mark hsign _ ih => exact .mark hsign ih
  | node hnode hne hspan hinner _ _ ih =>
    rw [List.append_assoc]
    exact .node hnode hne hspan hinner ih

theorem part {n : Node} {own : List Token} (hn : Spans n.span n.pieces own) (h : Laid ts ps) :
    Laid (own ++ ts) (.part n :: ps) :=
  .node rfl hn.ne_nil hn.span_eq hn.laid h

theorem clause {u : Update} {own : List Token} (hu : Spans u.span u.pieces own) (h : Laid ts ps) :
    Laid (own ++ ts) (.clause u :: ps) :=
  .node rfl hu.ne_nil hu.span_eq hu.laid h

/-- Tokens that are laid out have the signs of the pieces. -/
theorem map_sign (h : Laid ts ps) : ts.map Token.sign = ps.flatMap Piece.signs := by
  induction h with
  | nil => rfl
  | mark hsign _ ih => rw [List.map_cons, hsign, ih]; rfl
  | @node piece n own ts ps hnode _ _ _ _ ihown ih =>
    rw [List.map_append, ihown, ih, Piece.flatMap_signs_inner hnode, List.flatMap_cons]

/-- Every node among some pieces has tokens of its own. -/
theorem exists_of_mem (h : Laid ts ps) {piece : Piece} (hpiece : piece ∈ ps) {n : Node}
    (hn : piece.node? = some n) : ∃ own, own <:+: ts ∧ Spans n.span piece.inner own := by
  induction h with
  | nil => cases hpiece
  | @mark t ts sign ps _ _ ih =>
    rcases List.mem_cons.1 hpiece with rfl | hmem
    · cases hn
    · obtain ⟨own, hown, hspans⟩ := ih hmem
      exact ⟨own, hown.trans (List.suffix_cons t ts).isInfix, hspans⟩
  | @node piece' m own ts ps hnode hne hspan hinner _ _ ih =>
    rcases List.mem_cons.1 hpiece with rfl | hmem
    · rw [hn] at hnode
      obtain rfl := Option.some.inj hnode
      exact ⟨own, (List.prefix_append own ts).isInfix, hne, hspan, hinner⟩
    · obtain ⟨own', hown', hspans⟩ := ih hmem
      exact ⟨own', hown'.trans (List.suffix_append own ts).isInfix, hspans⟩

/-- What stands in a node stands in its piece. -/
theorem mem_inner_of_node? {piece part : Piece} {n c : Node} (hn : piece.node? = some n)
    (hpart : part ∈ n.pieces) (hc : part.node? = some c) : part ∈ piece.inner := by
  cases piece with
  | mark sign => cases hn
  | part m =>
    obtain rfl := Option.some.inj hn
    exact hpart
  | clause u =>
    obtain rfl := Option.some.inj hn
    -- The update has its parts, and then a semicolon that is no node.
    rcases List.mem_append.1 (show part ∈ u.pieces ++ [.fixed .semicolon] from hpart) with h | h
    · exact h
    · obtain rfl := List.mem_singleton.1 h
      cases hc

/-- Every node below some pieces has tokens of its own among theirs. -/
theorem exists_of_mem_preorder (h : Laid ts ps) {n m c : Node} (hn : n ∈ ps.filterMap Piece.node?)
    (hm : m ∈ n.preorder) {piece : Piece} (hpiece : piece ∈ m.pieces) (hc : piece.node? = some c) :
    ∃ own, own <:+: ts ∧ Spans c.span piece.inner own := by
  induction h generalizing n with
  | nil => cases hn
  | @mark t ts sign ps _ _ ih =>
    rw [List.filterMap_cons_none (Piece.node?_mark sign)] at hn
    obtain ⟨own, hown, hspans⟩ := ih hn hm
    exact ⟨own, hown.trans (List.suffix_cons t ts).isInfix, hspans⟩
  | @node outer n' own ts ps hnode _ _ hinner _ ihinner ih =>
    rw [List.filterMap_cons_some hnode] at hn
    rcases List.mem_cons.1 hn with rfl | hn
    · have hprefix : own <:+: own ++ ts := (List.prefix_append own ts).isInfix
      rw [Node.preorder_eq] at hm
      rcases List.mem_cons.1 hm with rfl | hm
      · obtain ⟨tokens, hsub, hspans⟩ :=
          hinner.exists_of_mem (mem_inner_of_node? hnode hpiece hc) hc
        exact ⟨tokens, hsub.trans hprefix, hspans⟩
      · obtain ⟨d, hd, hm⟩ := List.mem_flatMap.1 hm
        rw [← Piece.filterMap_node?_inner hnode] at hd
        obtain ⟨tokens, hsub, hspans⟩ := ihinner hd hm
        exact ⟨tokens, hsub.trans hprefix, hspans⟩
    · obtain ⟨tokens, hsub, hspans⟩ := ih hn hm
      exact ⟨tokens, hsub.trans (List.suffix_append own ts).isInfix, hspans⟩

end Laid

/-- A node begins with what its piece begins with. -/
theorem Piece.head?_inner {piece : Piece} {n : Node} (h : piece.node? = some n) :
    piece.inner.head? = n.pieces.head? := by
  cases piece with
  | mark sign => cases h
  | part m =>
    obtain rfl := Option.some.inj h
    rfl
  | clause u =>
    obtain rfl := Option.some.inj h
    cases u with
    | assign name op value span => rfl
    | step name op side span => cases side <;> rfl

/-- A span starts with the token of its first piece, if that is a mark. -/
theorem Spans.exists_first {span : Span} {ps : List Piece} {own : List Token}
    (h : Spans span ps own) {sign : Sign} (hsign : ps.head? = some (.mark sign)) :
    ∃ t ∈ own, t.sign = sign ∧ t.span.start = span.start := by
  cases h.laid with
  | nil => cases hsign
  | @mark t ts sign' ps ht hrest =>
    obtain rfl := Piece.mark.inj (Option.some.inj hsign)
    exact ⟨t, List.mem_cons_self .., ht, by rw [h.span_eq]; rfl⟩
  | node hnode =>
    obtain rfl := Option.some.inj hsign
    cases hnode

/-- The tokens of a piece have its signs. -/
theorem Spans.map_sign {piece : Piece} {n : Node} (hn : piece.node? = some n) {span : Span}
    {own : List Token} (h : Spans span piece.inner own) : own.map Token.sign = piece.signs := by
  rw [h.laid.map_sign, Piece.flatMap_signs_inner hn]

end ImpFront
