import Mathlib.Data.List.Nodup
import ImpFront.Proofs.Syntax.Erased
import ImpFront.Proofs.Syntax.Signs
import ImpFront.Proofs.Text.Quotes
/-!
# ImpFront.Proofs.Syntax.Labels

**What a description says of a node.** The description of a node is a word for its form and then
its own names and operators. These are its *label*, and nothing of a label is lost in words
(`Label.text_injective`): the word ends at the first space, types and operators hold none, and the
text of a string is quoted.

A node without its places is its label put on its parts (`Node.erase_eq_ofLabel`). So nodes with
the same description and the same parts differ in spans at most.
-/

namespace ImpFront

/-! ### Spellings -/

theorem Kind.describe_injective : Function.Injective Kind.describe := by
  have hnodup : (Kind.all.map Kind.describe).Nodup := by decide +kernel
  intro k k' h
  exact List.inj_on_of_nodup_map hnodup (Kind.mem_all k) (Kind.mem_all k') h

/-- A fixed spelling holds no space. -/
theorem Kind.space_not_mem_describe {k : Kind} (h : k.spelling? = some k.describe) :
    ' ' ∉ k.describe.toList := by
  have hall : ∀ k ∈ Kind.all, k.spelling? = some k.describe → ' ' ∉ k.describe.toList := by
    decide +kernel
  exact hall k (Kind.mem_all k) h

theorem Ty.keyword_injective : Function.Injective Ty.keyword := by
  intro t t' h
  have hkind := Ty.ofKind?_eq_some_iff.2 (Kind.describe_injective h)
  rw [Ty.ofKind?_eq_some_iff.2 rfl] at hkind
  exact Option.some.inj hkind

theorem BinaryOp.symbol_injective : Function.Injective BinaryOp.symbol := by
  intro op op' h
  have hkind := BinaryOp.ofKind?_eq_some_iff.2 (Kind.describe_injective h)
  rw [BinaryOp.ofKind?_eq_some_iff.2 rfl] at hkind
  exact Option.some.inj hkind

theorem AssignOp.symbol_injective : Function.Injective AssignOp.symbol := by
  intro op op' h
  have hkind := AssignOp.ofKind?_eq_some_iff.2 (Kind.describe_injective h)
  rw [AssignOp.ofKind?_eq_some_iff.2 rfl] at hkind
  exact Option.some.inj hkind

theorem StepOp.symbol_injective : Function.Injective StepOp.symbol := by
  intro op op' h
  have hkind := StepOp.ofKind?_eq_some_iff.2 (Kind.describe_injective h)
  rw [StepOp.ofKind?_eq_some_iff.2 rfl] at hkind
  exact Option.some.inj hkind

theorem Side.describe_injective : Function.Injective Side.describe := by
  intro s s' h
  cases s with
  | before =>
    cases s' with
    | before => rfl
    | behind => exact absurd h (by decide)
  | behind =>
    cases s' with
    | before => exact absurd h (by decide)
    | behind => rfl

/-! ### Forms -/

/-- The forms of nodes. -/
inductive Form where
  | program | function | parameter | block
  | declare | assign | step | ifElse | forLoop | whileLoop | ret | callStatement
  | symbol | number | string | not | group | assignExpr | binary | call
  deriving DecidableEq

namespace Form

/-- Every form once. -/
def all : List Form :=
  [.program, .function, .parameter, .block, .declare, .assign, .step, .ifElse, .forLoop,
   .whileLoop, .ret, .callStatement, .symbol, .number, .string, .not, .group, .assignExpr, .binary,
   .call]

/-- The word that begins the descriptions of a form. -/
def word : Form → String
  | program => "Program"
  | function => "Function"
  | parameter => "Parameter"
  | block => "Block"
  | declare => "VarDecl"
  | assign => "Assignment"
  | step => "IncDec"
  | ifElse => "If"
  | forLoop => "For"
  | whileLoop => "While"
  | ret => "Return"
  | callStatement => "ExpressionStmt"
  | symbol => "Symbol"
  | number => "Number"
  | string => "String"
  | not => "Not"
  | group => "Grouping"
  | assignExpr => "AssignmentExpr"
  | binary => "Binary"
  | call => "Call"

theorem mem_all (f : Form) : f ∈ all := by cases f <;> decide

theorem word_injective : Function.Injective word := by
  have hnodup : (all.map word).Nodup := by decide +kernel
  intro f g h
  exact List.inj_on_of_nodup_map hnodup (mem_all f) (mem_all g) h

theorem space_not_mem_word (f : Form) : ' ' ∉ f.word.toList := by
  have hall : ∀ f ∈ all, ' ' ∉ f.word.toList := by decide +kernel
  exact hall f (mem_all f)

end Form

/-! ### Labels -/

/-- What a node says besides its parts. -/
inductive Label where
  | program
  | function (returns : Ty) (name : String)
  | parameter (type : Ty) (name : String)
  | block
  | declare (type : Ty) (name : String)
  | assign (name : String) (op : AssignOp)
  | step (name : String) (op : StepOp) (side : Side)
  | ifElse | forLoop | whileLoop | ret | callStatement
  | symbol (name : String)
  | number (text : String)
  | string (value : String)
  | not | group
  | assignExpr (target : String)
  | binary (op : BinaryOp)
  | call (callee : String)

namespace Label

/-- The form of the nodes with a label. -/
def form : Label → Form
  | program => .program
  | function .. => .function
  | parameter .. => .parameter
  | block => .block
  | declare .. => .declare
  | assign .. => .assign
  | step .. => .step
  | ifElse => .ifElse
  | forLoop => .forLoop
  | whileLoop => .whileLoop
  | ret => .ret
  | callStatement => .callStatement
  | symbol _ => .symbol
  | number _ => .number
  | string _ => .string
  | not => .not
  | group => .group
  | assignExpr _ => .assignExpr
  | binary _ => .binary
  | call _ => .call

/-- Names and operators, as they follow the word for the form. -/
def details : Label → List String
  | function type name | parameter type name | declare type name => [type.keyword, name]
  | assign name op => [name, op.symbol]
  | step name op side => [name, op.symbol, side.describe]
  | symbol text | number text | assignExpr text | call text => [text]
  | string value => [Text.quote value]
  | binary op => [op.symbol]
  | program | block | ifElse | forLoop | whileLoop | ret | callStatement | not | group => []

/-- Details behind a word, with a space before each. -/
def spaced : List String → String
  | [] => ""
  | d :: ds => " " ++ d ++ spaced ds

/-- A label in words. -/
def text (l : Label) : String := l.form.word ++ spaced l.details

theorem spaced_one (w a : String) : w ++ spaced [a] = w ++ " " ++ a := by
  simp only [spaced, String.append_empty, String.append_assoc]

theorem spaced_two (w a b : String) : w ++ spaced [a, b] = w ++ " " ++ a ++ " " ++ b := by
  simp only [spaced, String.append_empty, String.append_assoc]

theorem spaced_three (w a b c : String) :
    w ++ spaced [a, b, c] = w ++ " " ++ a ++ " " ++ b ++ " " ++ c := by
  simp only [spaced, String.append_empty, String.append_assoc]

/-! ### Reading a label from its text -/

theorem space_not_mem_keyword (t : Ty) : ' ' ∉ t.keyword.toList :=
  Kind.space_not_mem_describe t.spelling?_kind

theorem space_not_mem_assignSymbol (op : AssignOp) : ' ' ∉ op.symbol.toList :=
  Kind.space_not_mem_describe op.spelling?_kind

theorem space_not_mem_stepSymbol (op : StepOp) : ' ' ∉ op.symbol.toList :=
  Kind.space_not_mem_describe op.spelling?_kind

theorem space_not_mem_side (s : Side) : ' ' ∉ s.describe.toList := by
  cases s <;> decide +kernel

/-- A text is cut at its first space in one way. -/
theorem eq_of_first_space {a b x y : String} (ha : ' ' ∉ a.toList) (hb : ' ' ∉ b.toList)
    (h : a ++ " " ++ x = b ++ " " ++ y) : a = b ∧ x = y := by
  have hlist := congrArg String.toList h
  simp only [String.toList_append, List.append_assoc] at hlist
  obtain ⟨hfront, hbehind⟩ := Text.eq_of_append_mark ha hb hlist
  exact ⟨String.toList_inj.1 hfront, String.toList_inj.1 hbehind⟩

/-- A text is cut at its last space in one way. -/
theorem eq_of_last_space {a b x y : String} (hx : ' ' ∉ x.toList) (hy : ' ' ∉ y.toList)
    (h : a ++ " " ++ x = b ++ " " ++ y) : a = b ∧ x = y := by
  have hlist := congrArg (fun s => s.toList.reverse) h
  simp only [String.toList_append, List.reverse_append, List.append_assoc] at hlist
  have hx' : ' ' ∉ x.toList.reverse := by simpa using hx
  have hy' : ' ' ∉ y.toList.reverse := by simpa using hy
  obtain ⟨hbehind, hfront⟩ := Text.eq_of_append_mark hx' hy' hlist
  exact ⟨String.toList_inj.1 (List.reverse_inj.1 hfront),
    String.toList_inj.1 (List.reverse_inj.1 hbehind)⟩

/-- The word ends where the details begin. -/
theorem eq_of_word {w w' : String} (hw : ' ' ∉ w.toList) (hw' : ' ' ∉ w'.toList)
    {ds ds' : List String} (h : w ++ spaced ds = w' ++ spaced ds') :
    w = w' ∧ spaced ds = spaced ds' := by
  -- With one more space behind the details there is a first space in any case.
  have hspace (ds : List String) : ∃ x, spaced ds ++ " " = " " ++ x := by
    cases ds with
    | nil => exact ⟨"", rfl⟩
    | cons d ds => exact ⟨d ++ spaced ds ++ " ", by simp only [spaced, String.append_assoc]⟩
  obtain ⟨x, hx⟩ := hspace ds
  obtain ⟨y, hy⟩ := hspace ds'
  have hwhole : w ++ " " ++ x = w' ++ " " ++ y := by
    rw [String.append_assoc, String.append_assoc, ← hx, ← hy, ← String.append_assoc,
      ← String.append_assoc, h]
  obtain ⟨rfl, -⟩ := eq_of_first_space hw hw' hwhole
  exact ⟨rfl, String.append_right_inj w |>.1 h⟩

theorem eq_of_typed {t t' : Ty} {name name' : String}
    (h : spaced [t.keyword, name] = spaced [t'.keyword, name']) : t = t' ∧ name = name' := by
  have hbody : t.keyword ++ " " ++ name = t'.keyword ++ " " ++ name' := by
    simpa [spaced, String.append_assoc] using h
  obtain ⟨hkeyword, hname⟩ :=
    eq_of_first_space (space_not_mem_keyword t) (space_not_mem_keyword t') hbody
  exact ⟨Ty.keyword_injective hkeyword, hname⟩

theorem eq_of_single {text text' : String} (h : spaced [text] = spaced [text']) : text = text' := by
  simpa [spaced] using h

/-- **A label is known from its text.** -/
theorem text_injective : Function.Injective text := by
  intro a b h
  obtain ⟨hword, hdetails⟩ :=
    eq_of_word a.form.space_not_mem_word b.form.space_not_mem_word h
  have hform := Form.word_injective hword
  cases a <;> cases b <;> cases hform
  case program | block | ifElse | forLoop | whileLoop | ret | callStatement | not | group => rfl
  case function.function | parameter.parameter | declare.declare =>
    obtain ⟨rfl, rfl⟩ := eq_of_typed hdetails
    rfl
  case assign.assign name op name' op' =>
    have hbody : name ++ " " ++ op.symbol = name' ++ " " ++ op'.symbol := by
      simpa [details, spaced, String.append_assoc] using hdetails
    obtain ⟨rfl, hop⟩ :=
      eq_of_last_space (space_not_mem_assignSymbol op) (space_not_mem_assignSymbol op') hbody
    rw [AssignOp.symbol_injective hop]
  case step.step name op side name' op' side' =>
    have hbody : name ++ " " ++ op.symbol ++ " " ++ side.describe
        = name' ++ " " ++ op'.symbol ++ " " ++ side'.describe := by
      simpa [details, spaced, String.append_assoc] using hdetails
    obtain ⟨hfront, hside⟩ :=
      eq_of_last_space (space_not_mem_side side) (space_not_mem_side side') hbody
    obtain ⟨rfl, hop⟩ :=
      eq_of_last_space (space_not_mem_stepSymbol op) (space_not_mem_stepSymbol op') hfront
    rw [StepOp.symbol_injective hop, Side.describe_injective hside]
  case symbol.symbol | number.number | assignExpr.assignExpr | call.call =>
    rw [eq_of_single hdetails]
  case string.string => rw [Text.quote_injective (eq_of_single hdetails)]
  case binary.binary => rw [BinaryOp.symbol_injective (eq_of_single hdetails)]

end Label

/-! ### Labels of nodes -/

/-- The label of a statement. -/
def Statement.label : Statement → Label
  | declare d => .declare d.type d.name
  | update (.assign name op _ _) => .assign name op
  | update (.step name op side _) => .step name op side
  | ifElse .. => .ifElse
  | forLoop .. => .forLoop
  | whileLoop .. => .whileLoop
  | ret .. => .ret
  | call .. => .callStatement

/-- The label of an expression. -/
def Expr.label : Expr → Label
  | symbol name _ => .symbol name
  | number text _ => .number text
  | string value _ => .string value
  | not .. => .not
  | group .. => .group
  | assign target _ _ => .assignExpr target
  | binary op _ _ _ => .binary op
  | call callee _ _ => .call callee

theorem Statement.describe_eq_text (s : Statement) : s.describe = s.label.text := by
  cases s with
  | declare d => exact (Label.spaced_two "VarDecl" d.type.keyword d.name).symm
  | update u =>
    cases u with
    | assign name op value span => exact (Label.spaced_two "Assignment" name op.symbol).symm
    | step name op side span =>
      exact (Label.spaced_three "IncDec" name op.symbol side.describe).symm
  | _ => rfl

theorem Expr.describe_eq_text (e : Expr) : e.describe = e.label.text := by
  cases e with
  | symbol name span => exact (Label.spaced_one "Symbol" name).symm
  | number text span => exact (Label.spaced_one "Number" text).symm
  | string value span => exact (Label.spaced_one "String" (Text.quote value)).symm
  | assign target value span => exact (Label.spaced_one "AssignmentExpr" target).symm
  | binary op left right span => exact (Label.spaced_one "Binary" op.symbol).symm
  | call callee arguments span => exact (Label.spaced_one "Call" callee).symm
  | _ => rfl

namespace Node

/-- The label of a node. -/
def label : Node → Label
  | program _ => .program
  | function f => .function f.returns f.name
  | parameter p => .parameter p.type p.name
  | block _ => .block
  | statement s => s.label
  | expr e => e.label

/-- A description is the label in words. -/
theorem describe_eq_text (n : Node) : n.describe = n.label.text := by
  cases n with
  | function f => exact (Label.spaced_two "Function" f.returns.keyword f.name).symm
  | parameter p => exact (Label.spaced_two "Parameter" p.type.keyword p.name).symm
  | statement s => exact s.describe_eq_text
  | expr e => exact e.describe_eq_text
  | _ => rfl

/-- Nodes that are described alike have the same label. -/
theorem label_eq_of_describe {n m : Node} (h : n.describe = m.describe) : n.label = m.label := by
  rw [describe_eq_text, describe_eq_text] at h
  exact Label.text_injective h

/-! ### Nodes from labels -/

/-- The parameter that a node is. -/
def parameter? : Node → Option Parameter
  | parameter p => some p
  | _ => none

/-- The statement that a node is. -/
def statement? : Node → Option Statement
  | statement s => some s
  | _ => none

/-- The expression that a node is. -/
def expr? : Node → Option Expr
  | expr e => some e
  | _ => none

/-- The node without places that has a label and these parts. No label is put on parts of another
number or sort than its nodes have. -/
def ofLabel : Label → List Node → Node
  | .function returns name, parts =>
    match parts.getLast? with
    | some (.block body) =>
      .function ⟨returns, name, parts.filterMap parameter?, body, default⟩
    | _ => default
  | .parameter type name, _ => .parameter ⟨type, name, default⟩
  | .block, parts => .block ⟨parts.filterMap statement?, default⟩
  | .declare type name, parts =>
    .statement (.declare ⟨type, name, (parts.filterMap expr?).head?, default⟩)
  | .assign name op, [.expr value] => .statement (.update (.assign name op value default))
  | .step name op side, _ => .statement (.update (.step name op side default))
  | .ifElse, [.expr condition, .block body] =>
    .statement (.ifElse condition body none default)
  | .ifElse, [.expr condition, .block body, .block otherwise] =>
    .statement (.ifElse condition body (some otherwise) default)
  | .forLoop, [.statement (.declare init), .expr condition, .statement (.update step),
      .block body] =>
    .statement (.forLoop init condition step body default)
  | .whileLoop, [.expr condition, .block body] =>
    .statement (.whileLoop condition body default)
  | .ret, parts => .statement (.ret (parts.filterMap expr?).head? default)
  | .callStatement, [.expr (.call callee arguments span)] =>
    .statement (.call ⟨callee, arguments, span⟩ default)
  | .symbol name, _ => .expr (.symbol name default)
  | .number text, _ => .expr (.number text default)
  | .string value, _ => .expr (.string value default)
  | .not, [.expr operand] => .expr (.not operand default)
  | .group, [.expr inner] => .expr (.group inner default)
  | .assignExpr target, [.expr value] => .expr (.assign target value default)
  | .binary op, [.expr left, .expr right] => .expr (.binary op left right default)
  | .call callee, parts => .expr (.call callee (parts.filterMap expr?) default)
  | _, _ => default

/-- Below a whole program, a node without its places is its label put on its parts. -/
theorem erase_eq_ofLabel {n : Node} (h : n.label ≠ .program) :
    n.erase = ofLabel n.label (n.children.map erase) := by
  cases n with
  | program p => exact absurd rfl h
  | function f =>
    simp [erase, Function.erase, label, ofLabel, children, List.filterMap_append,
      List.filterMap_map, Function.comp_def, parameter?]
  | parameter p => rfl
  | block b =>
    obtain ⟨body, span⟩ := b
    simp [erase, Block.erase, label, ofLabel, children, Statement.eraseList_eq_map,
      List.filterMap_map, Function.comp_def, statement?]
  | statement s =>
    cases s with
    | declare d =>
      obtain ⟨type, name, value, span⟩ := d
      cases value <;> rfl
    | update u => cases u <;> rfl
    | ifElse condition body otherwise span => cases otherwise <;> rfl
    | ret value span => cases value <;> rfl
    | _ => rfl
  | expr e =>
    cases e with
    | call callee arguments span =>
      simp [erase, Expr.erase, label, Expr.label, ofLabel, children, Expr.eraseList_eq_map,
        List.filterMap_map, Function.comp_def, expr?]
    | _ => rfl

/-- Nodes with the same description and the same parts, without places, are the same without
places. -/
theorem erase_eq_of_describe_eq {n m : Node} (hn : n.label ≠ .program)
    (hdescribe : n.describe = m.describe)
    (hchildren : n.children.map erase = m.children.map erase) : n.erase = m.erase := by
  have hlabel := label_eq_of_describe hdescribe
  rw [erase_eq_ofLabel hn, erase_eq_ofLabel (hlabel ▸ hn), hlabel, hchildren]

/-- A program is no part of anything. -/
theorem program_not_mem_children (p : Program) (n : Node) : program p ∉ n.children := by
  cases n with
  | program q =>
    intro h
    obtain ⟨item, -, hitem⟩ := List.mem_map.1 h
    cases item <;> cases hitem
  | statement s =>
    cases s with
    | update u => cases u <;> simp [children]
    | _ => simp [children]
  | expr e => cases e <;> simp [children]
  | _ => simp [children]

/-- Only a program is labelled as one. -/
theorem label_ne_program_of_mem_children {n c : Node} (h : c ∈ n.children) :
    c.label ≠ .program := by
  intro hlabel
  cases c with
  | program p => exact program_not_mem_children p n h
  | statement s =>
    cases s with
    | update u => cases u <;> cases hlabel
    | _ => cases hlabel
  | expr e => cases e <;> cases hlabel
  | _ => cases hlabel

end Node

end ImpFront
