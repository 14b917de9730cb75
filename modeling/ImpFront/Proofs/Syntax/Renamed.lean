import ImpFront.Proofs.Syntax.Members
import ImpFront.Proofs.Syntax.Signs
import ImpFront.Syntax.Renaming
/-!
# ImpFront.Proofs.Syntax.Renamed

**What does not depend on names and literals.** Renaming a tree renames those of its signs
whose kinds have no spelling, and leaves the others. Whether a tree can be read is decided by
its operators and the order of its parts, so renaming does not change that.
-/

namespace ImpFront

variable (f : String → String)

/-! ### Signs -/

/-- A sign with another text, where the text counts. -/
def Sign.rename (s : Sign) : Sign :=
  match s.kind.spelling? with
  | none => ⟨s.kind, f s.text⟩
  | some _ => s

theorem Sign.rename_fixed {k : Kind} (hk : k.spelling? = some k.describe) :
    (fixed k).rename f = fixed k := by
  rw [rename, kind_fixed, hk]

/-- A token with another text. -/
def Token.rename (t : Token) : Token := ⟨t.kind, f t.text, t.span⟩

theorem Token.sign_rename (t : Token) : (t.rename f).sign = t.sign.rename f := by
  cases h : t.kind.spelling? with
  | none =>
    rw [sign_of_unspelled rfl h, Sign.rename, h]
    exact sign_of_unspelled rfl h
  | some spelling =>
    have hsign : t.sign = ⟨t.kind, spelling⟩ := by rw [sign, h]
    rw [hsign, Sign.rename, h]
    simp only [sign, rename, h]

namespace Expr

mutual

/-- The signs of a renamed expression. -/
theorem signs_rename : (e : Expr) → (e.rename f).signs = e.signs.map (Sign.rename f)
  | symbol .. | number .. | string .. => rfl
  | not operand _ => by
    rw [rename, signs, signs, List.map_cons, operand.signs_rename]
    rfl
  | group inner _ => by
    rw [rename, signs, signs, List.map_append, List.map_cons, inner.signs_rename]
    rfl
  | assign _ value _ => by
    rw [rename, signs, signs, List.map_cons, List.map_cons, value.signs_rename]
    rfl
  | binary op left right _ => by
    rw [rename, signs, signs, List.map_append, List.map_cons, left.signs_rename,
      right.signs_rename, Sign.rename_fixed f op.spelling?_kind]
  | call _ arguments _ => by
    rw [rename, signs, signs, List.map_append, List.map_cons, List.map_cons,
      signsList_rename arguments]
    rfl

theorem signsList_rename : (es : List Expr) →
    signsList (renameList f es) = (signsList es).map (Sign.rename f)
  | [] => rfl
  | [e] => e.signs_rename
  | e :: g :: rest => by
    have hrest := signsList_rename (g :: rest)
    rw [renameList] at hrest
    rw [renameList, renameList, signsList, signsList, hrest, e.signs_rename, List.map_append,
      List.map_cons]
    rfl

end

end Expr

theorem Declaration.signs_rename (d : Declaration) :
    (d.rename f).signs = d.signs.map (Sign.rename f) := by
  obtain ⟨type, name, value, span⟩ := d
  have htype := Sign.rename_fixed f type.spelling?_kind
  cases value with
  | none =>
    rw [rename, signs, signs]
    exact congrArg (· :: _) htype.symm
  | some value =>
    simp only [rename, signs, Option.map_some, List.map_append, List.map_cons, htype,
      value.signs_rename f]
    rfl

theorem Update.signs_rename (u : Update) : (u.rename f).signs = u.signs.map (Sign.rename f) := by
  cases u with
  | assign name op value span =>
    rw [rename, signs, signs, List.map_cons, List.map_cons, value.signs_rename f,
      Sign.rename_fixed f op.spelling?_kind]
    rfl
  | step name op side span =>
    have hop := Sign.rename_fixed f op.spelling?_kind
    cases side <;> simp only [rename, signs, List.map_cons, hop] <;> rfl

theorem Call.signs_rename (c : Call) : (c.rename f).signs = c.signs.map (Sign.rename f) :=
  c.toExpr.signs_rename f

mutual

/-- The signs of a renamed statement. -/
theorem Statement.signs_rename : (st : Statement) →
    (st.rename f).signs = st.signs.map (Sign.rename f)
  | .declare d => d.signs_rename f
  | .update u => by
    rw [Statement.rename, Statement.signs, Statement.signs, List.map_append, u.signs_rename f]
    rfl
  | .ifElse condition body none _ => by
    simp only [Statement.rename, Statement.signs, List.map_append, List.map_cons,
      condition.signs_rename f, body.signs_rename]
    rfl
  | .ifElse condition body (some otherwise) _ => by
    simp only [Statement.rename, Statement.signs, List.map_append, List.map_cons,
      condition.signs_rename f, body.signs_rename, otherwise.signs_rename]
    rfl
  | .forLoop init condition step body _ => by
    simp only [Statement.rename, Statement.signs, List.map_append, List.map_cons,
      init.signs_rename f, condition.signs_rename f, step.signs_rename f, body.signs_rename]
    rfl
  | .whileLoop condition body _ => by
    simp only [Statement.rename, Statement.signs, List.map_append, List.map_cons,
      condition.signs_rename f, body.signs_rename]
    rfl
  | .ret none _ => rfl
  | .ret (some value) _ => by
    simp only [Statement.rename, Option.map_some, Statement.signs, List.map_append, List.map_cons,
      value.signs_rename f]
    rfl
  | .call c _ => by
    rw [Statement.rename, Statement.signs, Statement.signs, List.map_append, c.signs_rename f]
    rfl

/-- The signs of a renamed block. -/
theorem Block.signs_rename : (b : Block) → (b.rename f).signs = b.signs.map (Sign.rename f)
  | ⟨body, _⟩ => by
    rw [Block.rename, Block.signs, Block.signs, List.map_append, List.map_cons,
      Statement.signsList_rename body]
    rfl

theorem Statement.signsList_rename : (body : List Statement) →
    Statement.signsList (Statement.renameList f body)
      = (Statement.signsList body).map (Sign.rename f)
  | [] => rfl
  | st :: rest => by
    rw [Statement.renameList, Statement.signsList, Statement.signsList, List.map_append,
      st.signs_rename, Statement.signsList_rename rest]

end

theorem Parameter.signs_rename (p : Parameter) :
    (p.rename f).signs = p.signs.map (Sign.rename f) :=
  congrArg (· :: _) (Sign.rename_fixed f p.type.spelling?_kind).symm

/-- Renaming goes through separators that have a spelling. -/
theorem Sign.separate_rename {separator : Sign} (h : separator.rename f = separator)
    (parts : List (List Sign)) :
    separate separator (parts.map (List.map (rename f)))
      = (separate separator parts).map (rename f) := by
  cases parts with
  | nil => rfl
  | cons first others =>
    rw [List.map_cons, separate_cons, separate_cons, List.map_append, List.flatMap_map,
      List.map_flatMap]
    simp only [List.map_cons, h]

theorem Function.signs_rename (g : Function) :
    (g.rename f).signs = g.signs.map (Sign.rename f) := by
  have hparameters : (g.parameters.map (Parameter.rename f)).map Parameter.signs
      = (g.parameters.map Parameter.signs).map (List.map (Sign.rename f)) := by
    rw [List.map_map, List.map_map]
    exact List.map_congr_left fun p _ => p.signs_rename f
  have hcomma : (Sign.fixed .comma).rename f = Sign.fixed .comma := rfl
  simp only [rename, signs, hparameters, Sign.separate_rename f hcomma, List.map_append,
    List.map_cons, g.body.signs_rename f, Sign.rename_fixed f g.returns.spelling?_kind]
  rfl

theorem Item.signs_rename (item : Item) :
    (item.rename f).signs = item.signs.map (Sign.rename f) := by
  cases item with
  | global d => exact d.signs_rename f
  | function g => exact g.signs_rename f
  | statement st => exact st.signs_rename f

/-- **The signs of a renamed program** are those of the program, renamed. -/
theorem Program.signs_rename (p : Program) :
    (p.rename f).signs = p.signs.map (Sign.rename f) := by
  rw [signs, signs, rename, List.flatMap_map, List.map_flatMap, List.flatMap_def, List.flatMap_def]
  exact congrArg List.flatten (List.map_congr_left fun item _ => item.signs_rename f)

/-! ### Precedence -/

namespace Expr

theorem edge_rename : (e : Expr) → (e.rename f).edge = e.edge
  | symbol .. | number .. | string .. | group .. | call .. | assign .. => rfl
  | not operand _ => by rw [rename, edge, edge, operand.edge_rename]
  | binary _ _ right _ => by rw [rename, edge, edge, right.edge_rename]

mutual

theorem fits_rename (least : Power) : (e : Expr) → (e.rename f).fits least = e.fits least
  | symbol .. | number .. | string .. => rfl
  | not operand _ => by rw [rename, fits, fits, operand.fits_rename]
  | group inner _ => by rw [rename, fits, fits, inner.fits_rename]
  | assign _ value _ => by rw [rename, fits, fits, value.fits_rename]
  | binary _ left right _ => by
    rw [rename, fits, fits, left.fits_rename, left.edge_rename, right.fits_rename]
  | call _ arguments _ => by rw [rename, fits, fits, fitsList_rename arguments]

theorem fitsList_rename : (es : List Expr) → fitsList (renameList f es) = fitsList es
  | [] => rfl
  | e :: rest => by rw [renameList, fitsList, fitsList, e.fits_rename, fitsList_rename rest]

end

theorem wellFormed_rename (e : Expr) : (e.rename f).wellFormed = e.wellFormed :=
  e.fits_rename f Power.lowest

/-- Renaming does not change whether a value that may be missing can be read. -/
theorem all_wellFormed_rename (value : Option Expr) :
    (value.map (rename f)).all wellFormed = value.all wellFormed := by
  cases value with
  | none => rfl
  | some e => exact e.wellFormed_rename f

end Expr

theorem Update.wellFormed_rename (u : Update) : (u.rename f).wellFormed = u.wellFormed := by
  cases u with
  | assign name op value span => exact value.wellFormed_rename f
  | step name op side span => rfl

mutual

theorem Statement.wellFormed_rename : (st : Statement) → (st.rename f).wellFormed = st.wellFormed
  | .declare d => Expr.all_wellFormed_rename f d.value
  | .update u => u.wellFormed_rename f
  | .ifElse condition body none _ => by
    rw [Statement.rename, Statement.wellFormed, Statement.wellFormed,
      condition.wellFormed_rename f, body.wellFormed_rename]
  | .ifElse condition body (some otherwise) _ => by
    rw [Statement.rename, Statement.wellFormed, Statement.wellFormed,
      condition.wellFormed_rename f, body.wellFormed_rename, otherwise.wellFormed_rename]
  | .forLoop init condition step body _ => by
    have hinit : (init.rename f).wellFormed = init.wellFormed :=
      Expr.all_wellFormed_rename f init.value
    rw [Statement.rename, Statement.wellFormed, Statement.wellFormed, hinit,
      condition.wellFormed_rename f, step.wellFormed_rename f, body.wellFormed_rename]
  | .whileLoop condition body _ => by
    rw [Statement.rename, Statement.wellFormed, Statement.wellFormed,
      condition.wellFormed_rename f, body.wellFormed_rename]
  | .ret value _ => Expr.all_wellFormed_rename f value
  | .call c _ => Expr.fitsList_rename f c.arguments

theorem Block.wellFormed_rename : (b : Block) → (b.rename f).wellFormed = b.wellFormed
  | ⟨body, _⟩ => Statement.wellFormedList_rename body

theorem Statement.wellFormedList_rename : (body : List Statement) →
    Statement.wellFormedList (Statement.renameList f body) = Statement.wellFormedList body
  | [] => rfl
  | st :: rest => by
    rw [Statement.renameList, Statement.wellFormedList, Statement.wellFormedList,
      st.wellFormed_rename, Statement.wellFormedList_rename rest]

end

namespace Item

theorem wellFormed_rename (item : Item) : (item.rename f).wellFormed = item.wellFormed := by
  cases item with
  | global d => exact Expr.all_wellFormed_rename f d.value
  | function g => exact g.body.wellFormed_rename f
  | statement st => exact st.wellFormed_rename f

theorem isGlobal_rename (item : Item) : (item.rename f).isGlobal = item.isGlobal := by
  cases item <;> rfl

theorem isLateDeclaration_rename (item : Item) :
    (item.rename f).isLateDeclaration = item.isLateDeclaration := by
  cases item with
  | statement st =>
    cases st with
    | ifElse condition body otherwise span => cases otherwise <;> rfl
    | _ => rfl
  | _ => rfl

end Item

namespace Program

theorem others_rename (p : Program) : (p.rename f).others = p.others.map (Item.rename f) := by
  have hglobal : Item.isGlobal ∘ Item.rename f = Item.isGlobal :=
    funext fun item => item.isGlobal_rename f
  rw [others, others, rename, List.dropWhile_map, hglobal]

/-- **A renamed program can be read** exactly if the program can. -/
theorem wellFormed_rename (p : Program) : (p.rename f).wellFormed = p.wellFormed := by
  rw [wellFormed, wellFormed, others_rename, List.head?_map, Option.any_map, rename,
    List.all_map, List.all_map]
  simp only [Function.comp_def, Item.isGlobal_rename, Item.isLateDeclaration_rename,
    Item.wellFormed_rename]

end Program

end ImpFront
