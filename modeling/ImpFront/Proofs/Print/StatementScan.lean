import ImpFront.Proofs.Print.ExprScan
/-!
# ImpFront.Proofs.Print.StatementScan

**Statements and programs read back as they were written.** Every word in a statement
has a space or a closed symbol behind it; the line breaks and the indentation are
blanks and say nothing.
-/

namespace ImpFront

open Lexeme

/-! ### Parts of statements -/

theorem Ty.kind_mem_reserved (type : Ty) : type.kind ∈ Kind.reserved := by
  cases type <;> decide

theorem Call.says_text (call : Call) : Says call.text call.signs := call.toExpr.says_text

/-- A type and a name. -/
theorem Scans.typedName (type : Ty) {name : String} (hname : (Sign.name name).IsLexical)
    {rest : List Char} {tail : List Sign} (hrest : Follows rest tail) :
    Scans (type.keyword.toList ++ ' ' :: (name.toList ++ rest))
      (.fixed type.kind :: .name name :: tail) :=
  .reserved type.kind type.kind_mem_reserved (.space (.name hname hrest))

theorem Declaration.says_text (declaration : Declaration) :
    Says declaration.text declaration.signs := by
  obtain ⟨type, name, value, span⟩ := declaration
  intro h rest tail hrest
  cases value with
  | none =>
    simp only [Declaration.text, Declaration.signs, String.toList_append, List.append_assoc,
      List.cons_append, List.nil_append, List.forall_mem_cons] at h ⊢
    exact .typedName type h.2.1 (.closed .semicolon (by decide) hrest.scans)
  | some value =>
    simp only [Declaration.text, Declaration.signs, String.toList_append, List.append_assoc,
      List.cons_append, List.nil_append, List.forall_mem_append, List.forall_mem_cons] at h ⊢
    obtain ⟨-, hname, -, hvalue, -⟩ := h
    refine .typedName type hname (.spaced .assign (by decide) ?_)
    exact value.says_text hvalue (.closed .semicolon (by decide) hrest.scans)

theorem Update.says_text (update : Update) : Says update.text update.signs := by
  intro h rest tail hrest
  cases update with
  | assign name op value span =>
    simp only [Update.text, Update.signs, String.toList_append, List.append_assoc,
      List.cons_append, List.forall_mem_cons] at h ⊢
    obtain ⟨hname, -, hvalue⟩ := h
    refine .name hname (.spaced op.kind (by cases op <;> decide) ?_)
    exact value.says_text hvalue hrest
  | step name op side span =>
    have hclosed : op.kind ∈ closedSymbols := by cases op <;> decide
    cases side with
    | before =>
      simp only [Update.text, Update.signs, String.toList_append, List.append_assoc,
        List.cons_append, List.nil_append, List.forall_mem_cons] at h ⊢
      exact .closed op.kind hclosed (.name h.2.1 hrest)
    | behind =>
      simp only [Update.text, Update.signs, String.toList_append, List.append_assoc,
        List.cons_append, List.nil_append, List.forall_mem_cons] at h ⊢
      exact .name h.1 (.closed op.kind hclosed hrest.scans)

/-! ### Statements -/

/-- A reserved word with a condition, in front of a block. -/
theorem Scans.condition (kind : Kind) (hkind : kind ∈ Kind.reserved) {condition : Expr}
    (h : ∀ s ∈ condition.signs, s.IsLexical) {rest : List Char} {tail : List Sign}
    (hrest : Scans rest tail) :
    Scans (kind.describe.toList ++ ' ' :: '(' :: (condition.text.toList ++ ')' :: ' ' :: rest))
      (.fixed kind :: .fixed .openParen :: (condition.signs ++ .fixed .closeParen :: tail)) := by
  refine .reserved kind hkind (.space (.closed .openParen (by decide) ?_))
  exact condition.says_text h (.closed .closeParen (by decide) hrest.space)

mutual

/-- A printed statement says its signs. -/
theorem Statement.says_text (level : Nat) : (s : Statement) → Says (s.text level) s.signs
  | .declare declaration => declaration.says_text
  | .update update => by
    intro h rest tail hrest
    simp only [Statement.text, Statement.signs, String.toList_append, List.append_assoc,
      List.forall_mem_append] at h ⊢
    exact update.says_text h.1 (.closed .semicolon (by decide) hrest.scans)
  | .ifElse condition body none _ => by
    intro h rest tail hrest
    simp only [Statement.text, Statement.signs, String.toList_append, List.append_assoc,
      List.cons_append, List.forall_mem_append, List.forall_mem_cons] at h ⊢
    obtain ⟨-, -, hcondition, -, hbody⟩ := h
    exact .condition .ifWord (by decide) hcondition (body.says_text level hbody hrest)
  | .ifElse condition body (some otherwise) _ => by
    intro h rest tail hrest
    simp only [Statement.text, Statement.signs, String.toList_append, List.append_assoc,
      List.cons_append, List.forall_mem_append, List.forall_mem_cons] at h ⊢
    obtain ⟨-, -, hcondition, -, hbody, -, hotherwise⟩ := h
    refine .condition .ifWord (by decide) hcondition (body.says_text level hbody (.space ?_))
    refine .reserved .elseWord (by decide) (.space ?_)
    exact otherwise.says_text level hotherwise hrest
  | .forLoop init condition step body _ => by
    intro h rest tail hrest
    simp only [Statement.text, Statement.signs, String.toList_append, List.append_assoc,
      List.cons_append, List.forall_mem_append, List.forall_mem_cons] at h ⊢
    obtain ⟨-, -, hinit, hcondition, -, hstep, -, hbody⟩ := h
    refine .reserved .forWord (by decide) (.space (.closed .openParen (by decide) ?_))
    refine init.says_text hinit (.space ?_)
    refine condition.says_text hcondition (.closed .semicolon (by decide) (.space ?_))
    refine step.says_text hstep (.closed .closeParen (by decide) (.space ?_))
    exact body.says_text level hbody hrest
  | .whileLoop condition body _ => by
    intro h rest tail hrest
    simp only [Statement.text, Statement.signs, String.toList_append, List.append_assoc,
      List.cons_append, List.forall_mem_append, List.forall_mem_cons] at h ⊢
    obtain ⟨-, -, hcondition, -, hbody⟩ := h
    exact .condition .whileWord (by decide) hcondition (body.says_text level hbody hrest)
  | .ret none _ => by
    intro h rest tail hrest
    simp only [Statement.text, Statement.signs, List.cons_append, List.nil_append]
    exact .reserved .returnWord (by decide) (.closed .semicolon (by decide) hrest.scans)
  | .ret (some value) _ => by
    intro h rest tail hrest
    simp only [Statement.text, Statement.signs, String.toList_append, List.append_assoc,
      List.cons_append, List.forall_mem_append, List.forall_mem_cons] at h ⊢
    refine .reserved .returnWord (by decide) (.space ?_)
    exact value.says_text h.2.1 (.closed .semicolon (by decide) hrest.scans)
  | .call call _ => by
    intro h rest tail hrest
    simp only [Statement.text, Statement.signs, String.toList_append, List.append_assoc,
      List.forall_mem_append] at h ⊢
    exact call.says_text h.1 (.closed .semicolon (by decide) hrest.scans)

/-- A printed block says its signs. -/
theorem Block.says_text (level : Nat) : (b : Block) → Says (b.text level) b.signs
  | ⟨[], _⟩ => by
    intro h rest tail hrest
    simp only [Block.text, Block.signs, Statement.signsList, List.cons_append, List.nil_append]
    exact .closed .openCurly (by decide) (.closed .closeCurly (by decide) hrest.scans)
  | ⟨s :: others, _⟩ => by
    intro h rest tail hrest
    simp only [Block.text, Block.signs, String.toList_append, List.append_assoc,
      List.cons_append, List.forall_mem_append, List.forall_mem_cons] at h ⊢
    have hclose : Follows ('}' :: rest) (.fixed .closeCurly :: tail) :=
      .closed .closeCurly (by decide) hrest.scans
    refine .closed .openCurly (by decide) (.newline ?_)
    exact Statement.says_textLines (level + 1) (s :: others) h.2.1 (hclose.indentation level)

/-- The lines of statements say their signs. -/
theorem Statement.says_textLines (level : Nat) :
    (ss : List Statement) → Says (Statement.textLines level ss) (Statement.signsList ss)
  | [] => fun _ _ _ hrest => hrest.scans
  | s :: others => by
    intro h rest tail hrest
    simp only [Statement.textLines, Statement.signsList, String.toList_append, List.append_assoc,
      List.forall_mem_append] at h ⊢
    refine .indentation level (s.says_text level h.1 (.newline ?_))
    exact Statement.says_textLines level others h.2 hrest

end

/-! ### Programs -/

theorem Parameter.says_text (parameter : Parameter) :
    Says parameter.text parameter.signs := by
  intro h rest tail hrest
  simp only [Parameter.text, Parameter.signs, String.toList_append, List.append_assoc,
    List.cons_append, List.nil_append, List.forall_mem_cons] at h ⊢
  exact .typedName parameter.type h.2.1 hrest

/-- Printed parameters with commas between them say their signs. -/
theorem Parameter.says_intercalate : (parameters : List Parameter) →
    Says (", ".intercalate (parameters.map Parameter.text))
      (Sign.separate (.fixed .comma) (parameters.map Parameter.signs))
  | [] => fun _ _ _ hrest => hrest.scans
  | [parameter] => parameter.says_text
  | parameter :: next :: others => by
    intro h rest tail hrest
    have hothers := says_intercalate (next :: others)
    simp only [List.map_cons, Sign.separate, String.intercalate_cons_cons, String.toList_append,
      List.append_assoc, List.cons_append, List.forall_mem_append, List.forall_mem_cons]
      at h hothers ⊢
    obtain ⟨hparameter, -, htail⟩ := h
    refine parameter.says_text hparameter (.closed .comma (by decide) (.space ?_))
    exact hothers htail hrest

theorem Function.says_text (f : Function) : Says f.text f.signs := by
  intro h rest tail hrest
  simp only [Function.text, Function.signs, String.toList_append, List.append_assoc,
    List.cons_append, List.forall_mem_append, List.forall_mem_cons] at h ⊢
  obtain ⟨-, hname, -, hparameters, -, hbody⟩ := h
  refine .typedName f.returns hname (.closed .openParen (by decide) ?_)
  refine Parameter.says_intercalate f.parameters hparameters ?_
  refine .closed .closeParen (by decide) (.space ?_)
  exact f.body.says_text 0 hbody hrest

theorem Item.says_text (item : Item) : Says item.text item.signs := by
  cases item with
  | global declaration => exact declaration.says_text
  | function f => exact f.says_text
  | statement s => exact s.says_text 0

/-- A printed program says its signs. -/
theorem Program.scans_text (p : Program) (h : ∀ s ∈ p.signs, s.IsLexical) :
    Scans p.text.toList p.signs := by
  obtain ⟨items, span⟩ := p
  induction items with
  | nil => exact .nil
  | cons item items ih =>
    simp only [Program.text, Program.signs, List.map_cons, String.join_cons, List.flatMap_cons,
      String.toList_append, List.append_assoc, List.forall_mem_append] at h ih ⊢
    exact item.says_text h.1 (.newline (ih h.2))

end ImpFront
