import ImpFront.Proofs.Syntax.Erased
import ImpFront.Proofs.Syntax.Laid
/-!
# ImpFront.Proofs.Syntax.Determined

**Tokens determine the spans of what they are laid out as.** Erasing spans changes no mark of a
node and no sign, so two trees that are equal after erasing fall into their tokens at the same
places. The spans go around the tokens, so they are equal too: tokens can be laid out as one tree
only, up to the span of a whole program.
-/

namespace ImpFront

/-! ### Pieces without spans -/

/-- A piece with all spans erased. -/
def Piece.erase : Piece → Piece
  | mark sign => mark sign
  | part n => part n.erase
  | clause u => clause u.erase

namespace Piece

theorem node?_erase (piece : Piece) : piece.erase.node? = piece.node?.map Node.erase := by
  cases piece <;> rfl

theorem separate_erase (ns : List Node) :
    separate (ns.map Node.erase) = (separate ns).map erase := by
  cases ns with
  | nil => rfl
  | cons first others =>
    rw [List.map_cons, separate, separate, List.map_cons, List.flatMap_map, List.map_flatMap]
    rfl

end Piece

theorem Update.pieces_erase (u : Update) : u.erase.pieces = u.pieces.map Piece.erase := by
  cases u with
  | assign name op value span => rfl
  | step name op side span => cases side <;> rfl

namespace Node

/-- Erasing a node erases its pieces. -/
theorem pieces_erase (n : Node) : n.erase.pieces = n.pieces.map Piece.erase := by
  cases n with
  | program p =>
    simp only [erase, pieces, Program.erase, Program.pieces, List.map_map]
    exact List.map_congr_left fun item _ => congrArg Piece.part item.node_erase
  | function f =>
    have hparameters : (f.parameters.map Parameter.erase).map Node.parameter
        = (f.parameters.map Node.parameter).map erase := by
      rw [List.map_map, List.map_map]
      rfl
    simp only [erase, pieces, Function.erase, Function.pieces, hparameters, Piece.separate_erase,
      List.map_append, List.map_cons, List.map_nil]
    rfl
  | parameter p => rfl
  | block b =>
    obtain ⟨body, span⟩ := b
    simp only [erase, pieces, Block.erase, Block.pieces, Statement.eraseList_eq_map, List.map_map,
      List.map_append, List.map_cons, List.map_nil]
    rfl
  | statement s =>
    cases s with
    | declare d =>
      obtain ⟨type, name, value, span⟩ := d
      cases value <;> rfl
    | update u =>
      show u.erase.pieces ++ _ = (u.pieces ++ _).map Piece.erase
      rw [u.pieces_erase, List.map_append]
      rfl
    | ifElse condition body otherwise span => cases otherwise <;> rfl
    | ret value span => cases value <;> rfl
    | _ => rfl
  | expr e =>
    cases e with
    | call callee arguments span =>
      have harguments : (arguments.map Expr.erase).map Node.expr
          = (arguments.map Node.expr).map erase := by
        rw [List.map_map, List.map_map]
        rfl
      simp only [erase, pieces, Expr.erase, Expr.pieces, Expr.eraseList_eq_map, harguments,
        Piece.separate_erase, List.map_append, List.map_cons, List.map_nil]
      rfl
    | _ => rfl

/-- Spans say nothing. -/
theorem signs_erase (n : Node) : n.erase.signs = n.signs := by
  induction n using Node.induct with
  | h n ih =>
    rw [signs_eq_pieces, signs_eq_pieces n, pieces_erase, List.flatMap_map]
    refine List.flatMap_congr fun piece hpiece => ?_
    have hpart {c : Node} (hc : piece.node? = some c) : c.erase.signs = c.signs := by
      refine ih c ?_
      rw [children_eq_pieces]
      exact List.mem_filterMap.2 ⟨piece, hpiece, hc⟩
    cases piece with
    | mark sign => rfl
    | part c => exact hpart rfl
    | clause u =>
      -- As a statement, the update has a semicolon, which is the same with and without spans.
      exact List.append_cancel_right (hpart rfl)

end Node

/-! ### Nodes by their children -/

theorem Node.expr_injective : Function.Injective Node.expr := fun _ _ => Node.expr.inj

theorem Node.block_injective : Function.Injective Node.block := fun _ _ => Node.block.inj

/-- A part that need not be there is known from the node that it is. -/
theorem Node.option_eq {α : Type} {f : α → Node} (hf : Function.Injective f) {a b : Option α}
    (h : a.toList.map f = b.toList.map f) : a = b := by
  have hlist := List.map_injective_iff.2 hf h
  cases a <;> cases b <;> simp_all

theorem Expr.eq_of_children {e f : Expr} (herase : e.erase = f.erase) (hspan : e.span = f.span)
    (hchildren : (Node.expr e).children = (Node.expr f).children) : e = f := by
  cases e <;> cases f
  case call.call =>
    have harguments := List.map_injective_iff.2 Node.expr_injective hchildren
    simp_all [Expr.erase, Expr.span]
  all_goals simp_all [Expr.erase, Expr.span, Node.children]

theorem Declaration.eq_of_children {d d' : Declaration} (herase : d.erase = d'.erase)
    (hspan : d.span = d'.span)
    (hvalue : d.value.toList.map Node.expr = d'.value.toList.map Node.expr) : d = d' := by
  obtain ⟨type, name, value, span⟩ := d
  obtain ⟨type', name', value', span'⟩ := d'
  have hvalues := Node.option_eq Node.expr_injective hvalue
  simp_all [erase]

theorem Update.eq_of_children {u u' : Update} (herase : u.erase = u'.erase)
    (hspan : u.span = u'.span)
    (hchildren : (Node.statement (.update u)).children = (Node.statement (.update u')).children) :
    u = u' := by
  cases u <;> cases u' <;> simp_all [erase, span, Node.children]

theorem Statement.erase_ifElse (condition : Expr) (body : Block) (otherwise : Option Block)
    (span : Span) : (ifElse condition body otherwise span).erase
      = ifElse condition.erase body.erase (otherwise.map Block.erase) default := by
  cases otherwise <;> rfl

theorem Statement.eq_of_children {s t : Statement} (herase : s.erase = t.erase)
    (hspan : s.span = t.span)
    (hchildren : (Node.statement s).children = (Node.statement t).children) : s = t := by
  cases s <;> cases t
  case declare.declare d d' =>
    rw [Declaration.eq_of_children (Statement.declare.inj herase) hspan hchildren]
  case update.update u u' =>
    rw [Update.eq_of_children (Statement.update.inj herase) hspan hchildren]
  case ifElse.ifElse condition body otherwise span condition' body' otherwise' span' =>
    obtain ⟨hcondition, hrest⟩ := List.cons.inj hchildren
    obtain ⟨hbody, hotherwise⟩ := List.cons.inj hrest
    rw [Node.expr.inj hcondition, Node.block.inj hbody,
      Node.option_eq Node.block_injective hotherwise, show span = span' from hspan]
  case ret.ret value span value' span' =>
    rw [Node.option_eq Node.expr_injective hchildren, show span = span' from hspan]
  case call.call c span c' span' =>
    have hcall : c.toExpr = c'.toExpr := Node.expr.inj (List.cons.inj hchildren).1
    obtain ⟨callee, arguments, place⟩ := c
    obtain ⟨callee', arguments', place'⟩ := c'
    simp_all [Call.toExpr, Statement.span]
  -- What is left has other forms, or parts that are all there.
  all_goals try rw [Statement.erase_ifElse] at herase
  all_goals simp_all [Statement.erase, Statement.span, Node.children]

/-- The parts of a program are known from their nodes and from what is left of them without spans:
a global has the node of a declaration, and so has the statement. -/
theorem Item.eq_of_nodes {items items' : List Item} (herase : items.map erase = items'.map erase)
    (hnodes : items.map node = items'.map node) : items = items' := by
  induction items generalizing items' with
  | nil => exact (List.map_eq_nil_iff.1 herase.symm).symm
  | cons item rest ih =>
    obtain ⟨item', rest', rfl, hitem, hrest⟩ := List.map_eq_cons_iff.1 herase.symm
    obtain ⟨hnode, hnodes⟩ := List.cons.inj hnodes
    rw [ih hrest.symm hnodes]
    cases item <;> cases item' <;> simp_all [erase, node]

/-- **A node is known from its children and its span**, and from what is left of it without any. -/
theorem Node.eq_of_children {n m : Node} (herase : n.erase = m.erase) (hspan : n.span = m.span)
    (hchildren : n.children = m.children) : n = m := by
  cases n <;> cases m
  case program.program p q =>
    have hitems := Item.eq_of_nodes (congrArg Program.items (Node.program.inj herase)) hchildren
    obtain ⟨items, span⟩ := p
    obtain ⟨items', span'⟩ := q
    simp_all [Node.span]
  case function.function f g =>
    obtain ⟨hparameters, hbody⟩ := List.append_inj' hchildren rfl
    have hparameters := List.map_injective_iff.2 (fun _ _ => Node.parameter.inj) hparameters
    obtain ⟨returns, name, parameters, body, span⟩ := f
    obtain ⟨returns', name', parameters', body', span'⟩ := g
    simp_all [erase, Function.erase, Node.span]
  case parameter.parameter p q =>
    obtain ⟨type, name, span⟩ := p
    obtain ⟨type', name', span'⟩ := q
    simp_all [erase, Parameter.erase, Node.span]
  case block.block b c =>
    have hbody := List.map_injective_iff.2 (fun _ _ => Node.statement.inj) hchildren
    obtain ⟨body, span⟩ := b
    obtain ⟨body', span'⟩ := c
    simp_all [Node.span]
  case statement.statement s t =>
    rw [Statement.eq_of_children (Node.statement.inj herase) hspan hchildren]
  case expr.expr e f => rw [Expr.eq_of_children (Node.expr.inj herase) hspan hchildren]
  all_goals cases herase

/-! ### Laid out tokens -/

namespace Piece

variable {piece piece' : Piece} {n n' : Node}

theorem inner_erase (piece : Piece) : piece.erase.inner = piece.inner.map erase := by
  cases piece with
  | mark sign => rfl
  | part n => exact n.pieces_erase
  | clause u => exact u.pieces_erase

theorem signs_erase (piece : Piece) : piece.erase.signs = piece.signs := by
  cases piece with
  | mark sign => rfl
  | part n => exact n.signs_erase
  | clause u => exact List.append_cancel_right (Node.signs_erase (.statement (.update u)))

/-- A piece that is a node is known from the node, and from what is left of it without spans. -/
theorem eq_of_node? (herase : piece.erase = piece'.erase) (hn : piece.node? = some n)
    (hn' : piece'.node? = some n) : piece = piece' := by
  cases piece <;> cases piece'
  case part.part => exact congrArg part (Option.some.inj (hn.trans hn'.symm))
  case clause.clause =>
    have hstatement := Node.statement.inj (Option.some.inj (hn.trans hn'.symm))
    exact congrArg clause (Statement.update.inj hstatement)
  case mark.mark => cases hn
  all_goals cases herase

end Piece

namespace Laid

variable {ts : List Token} {ps qs : List Piece}

theorem of_cons_mark {t : Token} {sign : Sign} (h : Laid (t :: ts) (.mark sign :: ps)) :
    Laid ts ps := by
  generalize hall : t :: ts = all at h
  cases h with
  | mark _ hrest =>
    obtain ⟨-, rfl⟩ := List.cons.inj hall
    exact hrest
  | node hnode => cases hnode

theorem exists_of_cons_node {piece : Piece} {n : Node} (h : Laid ts (piece :: ps))
    (hn : piece.node? = some n) : ∃ own rest, ts = own ++ rest ∧ n.span = .around own
      ∧ Laid own piece.inner ∧ Laid rest ps := by
  cases h with
  | mark => cases hn
  | @node _ m own rest _ hnode _ hspan hinner hrest =>
    obtain rfl := Option.some.inj (hn.symm.trans hnode)
    exact ⟨own, rest, rfl, hspan, hinner, hrest⟩

/-- **Tokens are laid out as one row of pieces only**, among those that are equal without spans. -/
theorem eq_of_erase_eq (hps : Laid ts ps) (hqs : Laid ts qs)
    (herase : ps.map Piece.erase = qs.map Piece.erase) : ps = qs := by
  induction hps generalizing qs with
  | nil => exact (List.map_eq_nil_iff.1 herase.symm).symm
  | @mark t ts sign ps hsign hrest ih =>
    obtain ⟨q, qs, rfl, hq, hmore⟩ := List.map_eq_cons_iff.1 herase.symm
    obtain rfl : q = .mark sign := by
      cases q <;> simp_all [Piece.erase]
    rw [ih hqs.of_cons_mark hmore.symm]
  | @node piece n own ts ps hnode hne hspan hinner hrest ihinner ih =>
    obtain ⟨q, qs, rfl, hq, hmore⟩ := List.map_eq_cons_iff.1 herase.symm
    obtain ⟨m, hm, hnodes⟩ : ∃ m, q.node? = some m ∧ m.erase = n.erase := by
      have herased := congrArg Piece.node? hq
      rw [Piece.node?_erase, Piece.node?_erase, hnode] at herased
      exact Option.map_eq_some_iff.1 herased
    obtain ⟨own', rest', hsplit, hspan', hinner', hrest'⟩ := hqs.exists_of_cons_node hm
    -- The two pieces have the same signs, so they have taken the same number of tokens.
    have hlength : own.length = own'.length := by
      have hsigns : own.map Token.sign = own'.map Token.sign := by
        rw [hinner.map_sign, hinner'.map_sign, Piece.flatMap_signs_inner hnode,
          Piece.flatMap_signs_inner hm, ← piece.signs_erase, ← hq, q.signs_erase]
      simpa using congrArg List.length hsigns
    obtain ⟨rfl, rfl⟩ := List.append_inj hsplit hlength
    have hsame : piece.inner = q.inner := by
      refine ihinner hinner' ?_
      rw [← piece.inner_erase, ← hq, q.inner_erase]
    have hchildren : n.children = m.children := by
      rw [← Piece.filterMap_node?_inner hnode, hsame, Piece.filterMap_node?_inner hm]
    obtain rfl := Node.eq_of_children hnodes.symm (hspan.trans hspan'.symm) hchildren
    rw [Piece.eq_of_node? hq.symm hnode hm, ih hrest' hmore.symm]

end Laid

/-- Programs that the same tokens are laid out as have the same parts, all spans included. -/
theorem Program.items_eq_of_laid {p q : Program} {ts : List Token} (hp : Laid ts p.pieces)
    (hq : Laid ts q.pieces) (herase : p.erase = q.erase) : p.items = q.items := by
  have hpieces : p.pieces = q.pieces := by
    have herased (r : Program) : r.pieces.map Piece.erase = r.erase.pieces :=
      (Node.pieces_erase (.program r)).symm
    exact hp.eq_of_erase_eq hq (by rw [herased, herased, herase])
  refine Item.eq_of_nodes (congrArg Program.items herase) ?_
  have hnodes := congrArg (List.filterMap Piece.node?) hpieces
  rwa [pieces, pieces, Piece.filterMap_node?_map_part, Piece.filterMap_node?_map_part] at hnodes

end ImpFront
