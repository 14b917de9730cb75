import ImpFront.Proofs.Parse.Prescribed
import ImpFront.Proofs.Parse.ProgramSpans
import ImpFront.Proofs.Syntax.Fitting
import ImpFront.Proofs.Token.Sliced
/-!
# ImpFront.Proofs.Parse.Excerpts

**The source under a node is that node.** The stretch of a node is scanned as the tokens of the
node, and these have one reading: the node itself. An expression is read so with the least minimum,
although inside the program it may have been read with a larger one; a statement or a function is
read as a program of one part.
-/

namespace ImpFront

/-! ### Reading a stretch of a source -/

/-- With at least as many levels of nesting as it has tokens, the source of a stretch is read as
this expression up to the end, spans aside. -/
def Expr.IsSourceOf (e : Expr) (source : String) (span : Span) : Prop :=
  ∃ piece own place, Slice source.toList span.start.offset span.stop.offset piece
    ∧ Token.scan (.ofList piece) = .ok (own ++ [.endAt place])
    ∧ ∀ limit : Settings, own.length ≤ limit.maxDepth →
      ∃ e' s, Parse.expr (.standard limit) .lowest (.ofTokens (own ++ [.endAt place])) = .ok e' s
        ∧ e'.erase = e.erase ∧ s.stream.ahead = []

/-- With at least as many levels of nesting as it has tokens, the source of a stretch is read as a
program of one part, and the part has these events. -/
def Event.AreSourceOf (events : List Event) (source : String) (span : Span) : Prop :=
  ∃ piece own place, Slice source.toList span.start.offset span.stop.offset piece
    ∧ Token.scan (.ofList piece) = .ok (own ++ [.endAt place])
    ∧ ∀ limit : Settings, own.length ≤ limit.maxDepth →
      ∃ q item, Program.ofSource limit (.ofList piece) = .ok q ∧ q.items = [item]
        ∧ item.events.map Event.describe = events.map Event.describe

/-! ### Tokens with an end -/

theorem Stream.ahead_ofTokens_append_end {own : List Token} (hown : ∀ t ∈ own, t.kind ≠ .eof)
    (place : Position) : (ofTokens (own ++ [.endAt place])).ahead = own :=
  (ofTokens_append_end hown (Token.endAt_kind place)).1

namespace Parse

variable {own : List Token}

/-- The tokens of an expression that can be read are read as that expression. -/
theorem exists_expr_of_signs {e : Expr} (he : e.wellFormed = true)
    (hown : ∀ t ∈ own, t.kind ≠ .eof) (hsigns : own.map Token.sign = e.signs) (place : Position)
    (limit : Settings) (hlimit : own.length ≤ limit.maxDepth) :
    ∃ e' s, expr (.standard limit) .lowest (.ofTokens (own ++ [.endAt place])) = .ok e' s
      ∧ e'.erase = e.erase ∧ s.stream.ahead = [] := by
  have hneed : e.need ≤ limit.maxDepth := by
    have := e.need_le_length_signs
    rw [← hsigns, List.length_map] at this
    omega
  have hahead : (State.ofTokens (own ++ [.endAt place])).signs = e.signs := by
    rw [← hsigns]
    exact congrArg (List.map Token.sign) (Stream.ahead_ofTokens_append_end hown place)
  have hlevels : (State.ofTokens (own ++ [.endAt place])).depth + e.need ≤ limit.maxDepth :=
    (Nat.zero_add e.need).trans_le hneed
  obtain ⟨e', s, hread, herase, hs⟩ := exists_expr_at_end he hahead hlevels
  exact ⟨e', s, hread, herase, List.map_eq_nil_iff.1 hs⟩

end Parse

namespace Program

variable {settings : Settings} {source : String} {p : Program} {own : List Token}

/-- Any part that can be read makes a program that can be read, unless it is a declaration in the
place of a statement. -/
theorem wellFormed_singleton {item : Item} (hitem : item.wellFormed = true)
    (hlate : item.isLateDeclaration = false) (span : Span) :
    (Program.mk [item] span).wellFormed = true := by
  cases item with
  | global d => simp [wellFormed, others, List.dropWhile_cons, Item.isGlobal, hitem]
  | function f => simp [wellFormed, others, Item.isGlobal, Item.isLateDeclaration, hitem]
  | statement s => simp [wellFormed, others, Item.isGlobal, hitem, hlate]

/-- The tokens of a part that can be read are read as a program of that part. -/
theorem exists_ofSource_of_signs {item : Item} (hitem : item.wellFormed = true)
    (hlate : item.isLateDeclaration = false) {place : Position}
    (hscan : Token.scan source = .ok (own ++ [.endAt place])) (hown : ∀ t ∈ own, t.kind ≠ .eof)
    (hsigns : own.map Token.sign = item.signs) (limit : Settings)
    (hlimit : own.length ≤ limit.maxDepth) :
    ∃ q item', ofSource limit source = .ok q ∧ q.items = [item'] ∧ item'.erase = item.erase := by
  have hwhole : (Program.mk [item] default).signs = item.signs := by
    simp [Program.signs]
  have hahead : (State.ofTokens (own ++ [.endAt place])).signs
      = (Program.mk [item] default).signs := by
    rw [hwhole, ← hsigns]
    exact congrArg (List.map Token.sign) (Stream.ahead_ofTokens_append_end hown place)
  have hneed : (Program.mk [item] default).need ≤ limit.maxDepth := by
    have := (Program.mk [item] default).need_le_length_signs
    rw [hwhole, ← hsigns, List.length_map] at this
    omega
  obtain ⟨q, s, hq, herase⟩ :=
    exists_parseTokens limit hahead (wellFormed_singleton hitem hlate default) hneed
  have hitems : q.items.map Item.erase = [item.erase] := congrArg Program.items herase
  obtain ⟨item', hq', herase'⟩ := List.map_eq_singleton_iff.1 hitems
  exact ⟨q, item', ofSource_eq_ok_iff.2 ⟨_, hscan, ofTokens_eq_ok_iff.2 ⟨s, hq⟩⟩, hq', herase'⟩

/-- Parts that differ in spans at most have the same events in words. -/
theorem describe_events_of_erase {item item' : Item} (h : item'.erase = item.erase) :
    item'.events.map Event.describe = item.events.map Event.describe := by
  have hnode : item'.node.erase = item.node.erase := by
    rw [← Item.node_erase, ← Item.node_erase, h]
  rw [item'.events_eq_walk, item.events_eq_walk, ← Node.describe_walk_erase, hnode,
    Node.describe_walk_erase]

/-! ### Stretches of nodes -/

/-- The stretch of a part of a node is scanned as the signs of the part. -/
theorem exists_scan_of_part (h : ofSource settings source = .ok p) {m n : Node}
    (hm : m ∈ (Node.program p).preorder) (hn : .part n ∈ m.pieces) :
    ∃ piece own place, Slice source.toList n.span.start.offset n.span.stop.offset piece
      ∧ Token.scan (.ofList piece) = .ok (own ++ [.endAt place]) ∧ (∀ t ∈ own, t.kind ≠ .eof)
      ∧ own.map Token.sign = n.signs := by
  obtain ⟨tokens, place, hscan, -, hopen, -, hlaid, -⟩ := laid_of_ofSource h
  obtain ⟨inside, hsub, hspans⟩ := exists_tokens_of_mem_preorder hlaid hm hn rfl
  obtain ⟨piece, own, place', hslice, hscan', hown, hsigns⟩ :=
    Token.scan_slice hscan hopen hsub hspans.ne_nil
  rw [← hspans.span_eq] at hslice
  refine ⟨piece, own, place', hslice, hscan', hown, ?_⟩
  rw [hsigns]
  exact hspans.map_sign (Piece.node?_part n)

/-- Everything below a program that was read can be read. -/
theorem wellFormed_of_mem_preorder (h : ofSource settings source = .ok p) {n : Node}
    (hn : n ∈ (Node.program p).preorder) : n.wellFormed = true := by
  obtain ⟨tokens, -, hparse⟩ := ofSource_eq_ok_iff.1 h
  obtain ⟨s, hs⟩ := ofTokens_eq_ok_iff.1 hparse
  obtain ⟨-, hfits, -⟩ := of_parseTokens hs
  simp only [wellFormed, Bool.and_eq_true] at hfits
  exact Node.wellFormed_of_mem_preorder (n := .program p) hfits.2 hn

/-- The part of a program that a node is, if it is alone. -/
theorem areSourceOf_of_part (h : ofSource settings source = .ok p) {m : Node}
    (hm : m ∈ (Node.program p).preorder) (item : Item) (hitem : .part item.node ∈ m.pieces)
    (hlate : item.isLateDeclaration = false) :
    Event.AreSourceOf item.events source item.node.span := by
  obtain ⟨piece, own, place, hslice, hscan, hown, hsigns⟩ := exists_scan_of_part h hm hitem
  have hchild : item.node ∈ m.children := by
    rw [Node.children_eq_pieces]
    exact List.mem_filterMap.2 ⟨_, hitem, rfl⟩
  have hwell : item.wellFormed = true := by
    have hnode := Node.wellFormed_of_mem_children (wellFormed_of_mem_preorder h hm) hchild
    cases item <;> exact hnode
  have hsigns' : own.map Token.sign = item.signs := by
    rw [hsigns]
    cases item <;> rfl
  refine ⟨piece, own, place, hslice, hscan, fun limit hlimit => ?_⟩
  obtain ⟨q, item', hq, hitems, herase⟩ :=
    exists_ofSource_of_signs hwell hlate hscan hown hsigns' limit hlimit
  exact ⟨q, item', hq, hitems, describe_events_of_erase herase⟩

/-- An expression is the source of its stretch. -/
theorem isSourceOf_of_mem_preorder (h : ofSource settings source = .ok p) {e : Expr}
    (he : .expr e ∈ (Node.program p).preorder) : e.IsSourceOf source e.span := by
  obtain ⟨m, hm, piece, hpiece, hnode⟩ := Node.exists_piece he (by simp)
  obtain rfl : piece = .part (.expr e) := by
    cases piece with
    | mark sign => cases hnode
    | part n => exact congrArg Piece.part (Option.some.inj hnode)
    | clause u => cases hnode
  obtain ⟨piece, own, place, hslice, hscan, hown, hsigns⟩ := exists_scan_of_part h hm hpiece
  have hwell : e.wellFormed = true := wellFormed_of_mem_preorder h he
  refine ⟨piece, own, place, hslice, hscan, fun limit hlimit => ?_⟩
  exact Parse.exists_expr_of_signs hwell hown hsigns place limit hlimit

/-- A statement is the source of its stretch. Alone, a declaration is a global. -/
theorem areSourceOf_of_statement (h : ofSource settings source = .ok p) {m : Node}
    (hm : m ∈ (Node.program p).preorder) {st : Statement} (hst : .part (.statement st) ∈ m.pieces) :
    Event.AreSourceOf st.events source st.span := by
  by_cases hlate : (Item.statement st).isLateDeclaration = true
  · cases st with
    | declare d => exact areSourceOf_of_part h hm (.global d) hst rfl
    | _ => cases hlate
  · exact areSourceOf_of_part h hm (.statement st) hst (by simpa using hlate)

/-- **The source under a node is that node.** Let a source be read as a program. The source under an
expression of it is read as that expression. The source under a statement, except for an update in
a `for` header, and the source under a function are read as a program of one part with the events of
that node. -/
theorem source_under_nodes (h : ofSource settings source = .ok p) :
    (∀ e, .expr e ∈ (Node.program p).preorder → e.IsSourceOf source e.span)
    ∧ (∀ m ∈ (Node.program p).preorder, ∀ st, .part (.statement st) ∈ m.pieces →
      Event.AreSourceOf st.events source st.span)
    ∧ ∀ f, .function f ∈ p.items → Event.AreSourceOf f.events source f.span := by
  refine ⟨fun e he => isSourceOf_of_mem_preorder h he,
    fun m hm st hst => areSourceOf_of_statement h hm hst, fun f hf => ?_⟩
  have hpart : .part (.function f) ∈ (Node.program p).pieces :=
    List.mem_map.2 ⟨.function f, hf, rfl⟩
  exact areSourceOf_of_part h (Node.self_mem_preorder _) (.function f) hpart rfl

theorem source_under_nodes_at_negation : ∃ p,
    ofSource ⟨8⟩ "x=!(a+b)*c;" = .ok p
      ∧ p.text = "x = !(a + b) * c;\n"
      ∧ (∀ e, .expr e ∈ (Node.program p).preorder → e.IsSourceOf "x=!(a+b)*c;" e.span)
      ∧ (∀ m ∈ (Node.program p).preorder, ∀ st, .part (.statement st) ∈ m.pieces →
        Event.AreSourceOf st.events "x=!(a+b)*c;" st.span)
      ∧ ∀ f, .function f ∈ p.items → Event.AreSourceOf f.events "x=!(a+b)*c;" f.span := by
  have htext : (ofSource ⟨8⟩ "x=!(a+b)*c;").map text = .ok "x = !(a + b) * c;\n" := by
    decide +kernel
  obtain ⟨p, hp, htext⟩ := exists_of_map_ofSource htext
  exact ⟨p, hp, htext, source_under_nodes hp⟩

end Program

end ImpFront
