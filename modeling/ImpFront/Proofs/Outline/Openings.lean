import ImpFront.Proofs.Outline.Finding
import ImpFront.Proofs.Parse.ProgramSpans
/-!
# ImpFront.Proofs.Outline.Openings

**Where blocks start.** An outline takes for the block of an `else` the one that starts at the place
announced, so what counts is that no block in front of it starts there (`Node.Apart`). Every block
starts with an opening brace of its own (`Laid.openings_sublist`), so that is the case wherever
those start at different places, as they do in a source (`Program.apart_of_ofSource`).
-/

namespace ImpFront

namespace Node

variable {n c m : Node}

/-- The place where a block starts. -/
def opening? : Node → Option Position
  | block b => some b.span.start
  | _ => none

/-- The places where the blocks of a tree start, in preorder. -/
def openings (n : Node) : List Position := n.preorder.filterMap opening?

/-- Of an `if` with an `else`, nothing in front of the second block starts where that does. -/
def ElseApart (n : Node) : Prop :=
  ∀ condition body otherwise span, n = statement (.ifElse condition body (some otherwise) span) →
    ∀ c ∈ [expr condition, block body], otherwise.span.start ∉ c.openings

/-- In a whole tree, no block in front of that of an `else` starts where that does. -/
def Apart (n : Node) : Prop := ∀ m ∈ n.preorder, m.ElseApart

theorem openings_eq (n : Node) : n.openings = n.opening?.toList ++ n.children.flatMap openings :=
  filterMap_preorder opening? n

theorem start_mem_openings (b : Block) : b.span.start ∈ (block b).openings :=
  List.mem_filterMap.2 ⟨block b, self_mem_preorder _, rfl⟩

theorem openings_sublist_of_child (hc : c ∈ n.children) : c.openings.Sublist n.openings := by
  have hsome : c.openings.Sublist (n.children.flatMap openings) :=
    List.sublist_flatten_of_mem (List.mem_map_of_mem hc)
  rw [openings_eq n]
  exact hsome.trans (List.sublist_append_right ..)

theorem Apart.elseApart (h : n.Apart) : n.ElseApart := h n n.self_mem_preorder

theorem Apart.child (h : n.Apart) (hc : c ∈ n.children) : c.Apart :=
  fun m hm => h m (mem_preorder_of_child hc hm)

/-- Blocks are apart when those of each part are, and those of the parts of an `if`. -/
theorem apart_of_children (h : n.ElseApart) (hc : ∀ c ∈ n.children, c.Apart) : n.Apart := by
  intro m hm
  rw [preorder_eq] at hm
  rcases List.mem_cons.1 hm with rfl | hm
  · exact h
  · obtain ⟨c, hmem, hm⟩ := List.mem_flatMap.1 hm
    exact hc c hmem m hm

/-- What is true of any two parts is so of one in front of an `else` and the block behind it. -/
theorem elseApart_of_pairwise
    (h : n.children.Pairwise fun c d => ∀ b, d = block b → b.span.start ∉ c.openings) :
    n.ElseApart := by
  rintro condition body otherwise span rfl c hc
  have hparts : (statement (.ifElse condition body (some otherwise) span)).children
      = [expr condition, block body] ++ [block otherwise] := rfl
  rw [hparts] at h
  exact (List.pairwise_append.1 h).2.2 c hc _ (List.mem_singleton.2 rfl) otherwise rfl

/-- Blocks that all start at different places are apart. -/
theorem apart_of_nodup (h : n.openings.Nodup) : n.Apart := by
  induction n using induct with
  | h n ih =>
    refine apart_of_children (elseApart_of_pairwise ?_) fun c hc =>
      ih c hc (h.sublist (openings_sublist_of_child hc))
    rw [openings_eq] at h
    have hparts := (List.pairwise_flatMap.1 (List.nodup_append.1 h).2.1).2
    refine hparts.imp fun {c d} hne => ?_
    rintro b rfl hstart
    exact hne _ hstart _ (start_mem_openings b) rfl

end Node

/-! ### Opening braces -/

/-- The places where the opening braces among some tokens start. -/
def Token.braces (ts : List Token) : List Position :=
  (ts.filter (·.kind = .openCurly)).map (·.span.start)

@[simp] theorem Token.braces_append (ts us : List Token) :
    braces (ts ++ us) = braces ts ++ braces us := by
  rw [braces, List.filter_append, List.map_append]
  rfl

theorem Token.braces_cons {t : Token} (h : t.kind = .openCurly) (ts : List Token) :
    braces (t :: ts) = t.span.start :: braces ts := by
  rw [braces, List.filter_cons_of_pos (by simp [h]), List.map_cons]
  rfl

/-- The tokens of a source stand one behind the other, so no two start at the same place. -/
theorem Token.nodup_braces_of_scan {source : String} {tokens : List Token}
    (h : scan source = .ok tokens) : (braces tokens).Nodup := by
  obtain ⟨own, place, rfl, -, horder, -⟩ := inOrder_of_scan h
  have hstarts : own.Pairwise fun t u => t.span.start ≠ u.span.start := by
    refine horder.apart.imp_of_mem fun {t u} ht _ hbefore heq => ?_
    have hproper : t.span.start.offset < t.span.stop.offset := horder.proper t ht
    have hstop : t.span.stop.offset ≤ u.span.start.offset := hbefore
    rw [heq] at hproper
    exact absurd hproper (Nat.not_lt.2 hstop)
  have hend : braces [endAt place] = [] := rfl
  rw [braces_append, hend, List.append_nil]
  exact List.pairwise_map.2 (hstarts.filter _)

/-- The places where the blocks among some pieces and below them start. -/
def Piece.openings (ps : List Piece) : List Position :=
  (ps.filterMap node?).flatMap Node.openings

/-- A node starts where its first token does. So if it is a block, that is its opening brace, and
the others are left for what is in it. -/
theorem Spans.openings_sublist {piece : Piece} {n : Node} {own : List Token}
    (h : Spans n.span piece.inner own) (hn : piece.node? = some n)
    (hall : (Piece.openings piece.inner).Sublist (Token.braces own))
    (htail : ∀ sign ps, piece.inner = .mark sign :: ps →
      (Piece.openings piece.inner).Sublist (Token.braces own.tail)) :
    n.openings.Sublist (Token.braces own) := by
  have hinner : Piece.openings piece.inner = n.children.flatMap Node.openings :=
    congrArg (List.flatMap Node.openings) (Piece.filterMap_node?_inner hn)
  rw [hinner] at hall htail
  rw [Node.openings_eq]
  cases n with
  | block b =>
    have hpiece : piece = .part (.block b) := by
      cases piece <;> cases hn
      rfl
    subst hpiece
    have hlaid : Laid own (.fixed .openCurly :: _) := h.laid
    cases hlaid with
    | @mark t ts sign ps hsign hrest =>
      have hkind : t.kind = .openCurly := by rw [← t.kind_sign, hsign, Sign.kind_fixed]
      have hstart : (Node.block b).span.start = t.span.start := by rw [h.span_eq]; rfl
      rw [Token.braces_cons hkind, ← hstart]
      exact (htail _ _ rfl).cons_cons _
    | node hnode => cases hnode
  | _ => exact hall

namespace Laid

variable {ts : List Token} {ps : List Piece}

/-- Every block among some pieces and below them starts with an opening brace of its own. Of pieces
that begin with a mark, the token of that is not needed. -/
theorem openings_sublist (h : Laid ts ps) :
    (Piece.openings ps).Sublist (Token.braces ts)
    ∧ ∀ sign qs, ps = .mark sign :: qs →
      (Piece.openings ps).Sublist (Token.braces ts.tail) := by
  induction h with
  | nil => exact ⟨.slnil, fun _ _ hps => by cases hps⟩
  | @mark t ts sign ps _ _ ih =>
    have hcons : (Token.braces ts).Sublist (Token.braces (t :: ts)) :=
      ((List.sublist_cons_self t ts).filter _).map _
    exact ⟨ih.1.trans hcons, fun _ _ _ => ih.1⟩
  | @node piece n own ts ps hnode hne hspan hinner _ ihinner ih =>
    have hown := Spans.openings_sublist ⟨hne, hspan, hinner⟩ hnode ihinner.1 ihinner.2
    constructor
    · rw [Piece.openings, List.filterMap_cons_some hnode, List.flatMap_cons, Token.braces_append]
      exact hown.append ih.1
    · rintro sign qs hps
      obtain ⟨rfl, -⟩ := List.cons.inj hps
      cases hnode

end Laid

/-! ### Programs -/

namespace Program

variable {settings : Settings} {source : String} {tokens : List Token} {p : Program}

/-- The blocks of a program that was read start with opening braces among the tokens. -/
theorem openings_sublist_of_ofTokens (h : ofTokens settings tokens = .ok p) :
    (Node.program p).openings.Sublist (Token.braces tokens) := by
  obtain ⟨s, hs⟩ := ofTokens_eq_ok_iff.1 h
  rw [parseTokens_eq] at hs
  obtain ⟨hfilled, hempty, -⟩ := Parse.filled_of_programAt hs
  obtain ⟨ts, hts, hlaid⟩ := hfilled.exists_tokens
  have hown : tokens.takeWhile (·.kind ≠ .eof) = ts := by
    rw [← Stream.ahead_ofTokens, ← List.append_nil ts, ← hempty]
    exact hts
  have hpieces : Piece.openings p.pieces = (Node.program p).openings := by
    rw [Node.openings_eq, Node.children_eq_pieces]
    rfl
  rw [← hpieces]
  exact hlaid.openings_sublist.1.trans
    (((hown ▸ List.takeWhile_sublist _).filter _).map _)

/-- Where opening braces start at different places, so do blocks. -/
theorem apart_of_ofTokens (h : ofTokens settings tokens = .ok p)
    (hbraces : (Token.braces tokens).Nodup) : (Node.program p).Apart :=
  Node.apart_of_nodup (hbraces.sublist (openings_sublist_of_ofTokens h))

theorem apart_of_ofSource (h : ofSource settings source = .ok p) : (Node.program p).Apart := by
  obtain ⟨tokens, hscan, hparse⟩ := ofSource_eq_ok_iff.1 h
  exact apart_of_ofTokens hparse (Token.nodup_braces_of_scan hscan)

end Program

end ImpFront
