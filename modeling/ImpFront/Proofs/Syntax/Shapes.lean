import Mathlib.Data.List.Nodup
import ImpFront.Proofs.Syntax.Erased
import ImpFront.Proofs.Token.Scans
import ImpFront.Syntax.SExpr
/-!
# ImpFront.Proofs.Syntax.Shapes

**The shape of an expression determines it.** An s-expression is known from any text that begins
with it and goes on with a space or a closing parenthesis (`SExpr.eq_of_text_append`): a word ends
where no character of a word follows, a literal at its quote, a list at the parenthesis that no
part has taken. Names, marks and numbers hold none of these characters, so they may be called
anything; the first character of a word tells names from numbers. With both, the expression is
read back from its shape.
-/

namespace ImpFront

open Lexeme

/-! ### Words -/

/-- A character that ends no word of an s-expression and begins no other one. -/
def isPlainChar (c : Char) : Bool := c ≠ ' ' && c ≠ '(' && c ≠ ')' && c ≠ '"'

/-- Whether a text can be a word of an s-expression. -/
def IsPlain (text : List Char) : Prop := text ≠ [] ∧ ∀ c ∈ text, isPlainChar c = true

/-- Whether a word or an s-expression ends where the text begins. -/
def Ends (rest : List Char) : Prop := ∀ c ∈ rest.head?, c = ' ' ∨ c = ')'

theorem isPlainChar_of_isWordChar {c : Char} (h : isWordChar c = true) : isPlainChar c = true := by
  have hne {d : Char} (hd : isWordChar d = false) : c ≠ d := by
    rintro rfl
    rw [hd] at h
    cases h
  simp [isPlainChar, hne (d := ' ') (by decide), hne (d := '(') (by decide),
    hne (d := ')') (by decide), hne (d := '"') (by decide)]

theorem isPlainChar_of_isDigit {c : Char} (h : c.isDigit = true) : isPlainChar c = true :=
  isPlainChar_of_isWordChar (by rw [isWordChar, h, Bool.or_true])

theorem isPlain_of_isWord {text : List Char} (h : IsWord text) : IsPlain text := by
  obtain ⟨c, tail, rfl, hc, htail⟩ := h
  refine ⟨List.cons_ne_nil c tail, List.forall_mem_cons.2 ⟨?_, fun d hd => ?_⟩⟩
  · exact isPlainChar_of_isWordChar (by rw [isWordChar, hc, Bool.true_or])
  · exact isPlainChar_of_isWordChar (htail d hd)

theorem isPlain_of_isNumber {text : List Char} (h : IsNumber text) : IsPlain text := by
  rcases h with ⟨hne, hdigits⟩ | ⟨whole, fraction, ⟨-, hwhole⟩, ⟨-, hfraction⟩, rfl⟩
  · exact ⟨hne, fun c hc => isPlainChar_of_isDigit (hdigits c hc)⟩
  · refine ⟨by simp, List.forall_mem_append.2 ⟨?_, List.forall_mem_cons.2 ⟨by decide, ?_⟩⟩⟩
    · exact fun c hc => isPlainChar_of_isDigit (hwhole c hc)
    · exact fun c hc => isPlainChar_of_isDigit (hfraction c hc)

/-- A plain word is known from any text in which it ends. -/
theorem eq_of_plain_append {a b x y : List Char} (ha : IsPlain a) (hb : IsPlain b) (hx : Ends x)
    (hy : Ends y) (h : a ++ x = b ++ y) : a = b ∧ x = y := by
  have hstop {rest : List Char} (hrest : Ends rest) :
      ∀ c ∈ rest.head?, isPlainChar c = false := by
    intro c hc
    rcases hrest c hc with rfl | rfl <;> decide
  have hfront := congrArg (List.takeWhile isPlainChar) h
  rw [takeWhile_append_eq ha.2 (hstop hx), takeWhile_append_eq hb.2 (hstop hy)] at hfront
  subst hfront
  exact ⟨rfl, List.append_cancel_left h⟩

/-! ### Literals -/

/-- A literal is known from any text that begins with it. -/
theorem Text.eq_of_encode_append {v w : String} {x y : List Char}
    (h : (encode v).toList ++ x = (encode w).toList ++ y) : v = w ∧ x = y := by
  have hread (value : String) (rest : List Char) :
      stringBody? (((encode value).toList ++ rest).tail) = some (encodeBody value.toList) := by
    rw [toList_encode]
    simpa using stringBody?_append (isBody_encodeBody value.toList) rest
  have hbody := hread v x
  rw [h, hread w y] at hbody
  have htext := congrArg decodeBody (Option.some.inj hbody)
  rw [decodeBody_encodeBody, decodeBody_encodeBody] at htext
  obtain rfl := String.toList_inj.1 htext
  exact ⟨rfl, List.append_cancel_left h⟩

/-! ### Marks -/

namespace Mark

theorem mem_all (mark : Mark) : mark ∈ all := by
  cases mark with
  | binary op => cases op <;> decide
  | _ => decide

theorem text_injective : Function.Injective text := by
  have hnodup : (all.map text).Nodup := by decide +kernel
  intro m n h
  exact List.inj_on_of_nodup_map hnodup (mem_all m) (mem_all n) h

theorem isPlain_text (mark : Mark) : IsPlain mark.text.toList := by
  have htable : ∀ mark ∈ all,
      mark.text.toList ≠ [] ∧ mark.text.toList.all isPlainChar = true := by
    decide +kernel
  obtain ⟨hne, hplain⟩ := htable mark (mem_all mark)
  exact ⟨hne, List.all_eq_true.1 hplain⟩

end Mark

/-! ### S-expressions -/

namespace SExpr

mutual

/-- Whether the words of an s-expression are plain. -/
def Plain : SExpr → Prop
  | word text => IsPlain text.toList
  | literal _ => True
  | list _ parts => PlainList parts

/-- Whether the words of s-expressions are plain. -/
def PlainList : List SExpr → Prop
  | [] => True
  | s :: rest => s.Plain ∧ PlainList rest

end

/-- What begins with a word begins with a plain character. -/
theorem isPlainChar_of_append {text : List Char} (htext : IsPlain text) {c : Char}
    {x y : List Char} (h : text ++ x = c :: y) : isPlainChar c = true := by
  obtain ⟨d, tail, rfl⟩ := List.exists_cons_of_ne_nil htext.1
  obtain rfl := (List.cons.inj h).1
  exact htext.2 _ (List.mem_cons_self ..)

theorem ends_textList_append (parts : List SExpr) (x : List Char) :
    Ends (textList parts ++ ')' :: x) := by
  cases parts with
  | nil =>
    rintro c ⟨⟩
    exact .inr rfl
  | cons s rest =>
    rw [textList]
    rintro c ⟨⟩
    exact .inl rfl

theorem text_literal_append (value : String) (x : List Char) :
    (literal value).text ++ x = '"' :: (Text.encodeBody value.toList ++ '"' :: x) := by
  simp [text]

theorem text_list_append (mark : Mark) (parts : List SExpr) (x : List Char) :
    (list mark parts).text ++ x = '(' :: (mark.text.toList ++ (textList parts ++ ')' :: x)) := by
  simp [text]

mutual

/-- **An s-expression is known from any text in which it ends.** -/
theorem eq_of_text_append {x y : List Char} (hx : Ends x) (hy : Ends y) :
    (s t : SExpr) → s.Plain → t.Plain → s.text ++ x = t.text ++ y → s = t ∧ x = y
  | word a, word b, ha, hb => by
    intro h
    obtain ⟨htext, hrest⟩ := eq_of_plain_append ha hb hx hy h
    exact ⟨congrArg word (String.toList_inj.1 htext), hrest⟩
  | word a, literal w, ha, _ => by
    intro h
    rw [text_literal_append] at h
    exact absurd (isPlainChar_of_append ha h) (by decide)
  | word a, list n ts, ha, _ => by
    intro h
    rw [text_list_append] at h
    exact absurd (isPlainChar_of_append ha h) (by decide)
  | literal v, word b, _, hb => by
    intro h
    rw [text_literal_append] at h
    exact absurd (isPlainChar_of_append hb h.symm) (by decide)
  | literal v, literal w, _, _ => by
    intro h
    obtain ⟨rfl, hrest⟩ := Text.eq_of_encode_append h
    exact ⟨rfl, hrest⟩
  | literal v, list n ts, _, _ => by
    intro h
    rw [text_literal_append, text_list_append] at h
    exact absurd (List.cons.inj h).1 (by decide)
  | list m ss, word b, _, hb => by
    intro h
    rw [text_list_append] at h
    exact absurd (isPlainChar_of_append hb h.symm) (by decide)
  | list m ss, literal w, _, _ => by
    intro h
    rw [text_list_append, text_literal_append] at h
    exact absurd (List.cons.inj h).1 (by decide)
  | list m ss, list n ts, hs, ht => by
    intro h
    rw [text_list_append, text_list_append] at h
    obtain ⟨hmark, hparts⟩ := eq_of_plain_append m.isPlain_text n.isPlain_text
      (ends_textList_append ss x) (ends_textList_append ts y) (List.cons.inj h).2
    obtain rfl := Mark.text_injective (String.toList_inj.1 hmark)
    obtain ⟨rfl, hrest⟩ := eq_of_textList_append ss ts hs ht hparts
    exact ⟨rfl, hrest⟩

/-- The parts of a list end at the parenthesis that none of them has taken. -/
theorem eq_of_textList_append {x y : List Char} :
    (ss ts : List SExpr) → PlainList ss → PlainList ts →
      textList ss ++ ')' :: x = textList ts ++ ')' :: y → ss = ts ∧ x = y
  | [], [], _, _, h => ⟨rfl, (List.cons.inj h).2⟩
  | [], t :: ts, _, _, h => by
    rw [textList, textList] at h
    exact absurd (List.cons.inj h).1 (by decide)
  | s :: ss, [], _, _, h => by
    rw [textList, textList] at h
    exact absurd (List.cons.inj h).1 (by decide)
  | s :: ss, t :: ts, ⟨hs, hss⟩, ⟨ht, hts⟩, h => by
    rw [textList, textList, List.cons_append, List.cons_append, List.append_assoc,
      List.append_assoc] at h
    obtain ⟨rfl, hrest⟩ := eq_of_text_append (ends_textList_append ss x)
      (ends_textList_append ts y) s t hs ht (List.cons.inj h).2
    obtain ⟨rfl, hxy⟩ := eq_of_textList_append ss ts hss hts hrest
    exact ⟨rfl, hxy⟩

end

end SExpr

/-! ### Expressions -/

namespace Expr

mutual

/-- The names and numbers of an expression are plain words. -/
theorem plain_toSExpr : (e : Expr) → (∀ s ∈ e.signs, s.IsLexical) → e.toSExpr.Plain
  | symbol name _, h => isPlain_of_isWord ((h _ (List.mem_singleton_self _)).word rfl).1
  | number digits _, h => isPlain_of_isNumber ((h _ (List.mem_singleton_self _)).number rfl)
  | string value _, _ => trivial
  | not operand _, h => by
    rw [signs, List.forall_mem_cons] at h
    exact ⟨operand.plain_toSExpr h.2, trivial⟩
  | group inner _, h => by
    simp only [signs, List.cons_append, List.forall_mem_cons, List.forall_mem_append] at h
    exact ⟨inner.plain_toSExpr h.2.1, trivial⟩
  | assign target value _, h => by
    simp only [signs, List.forall_mem_cons] at h
    obtain ⟨htarget, -, hvalue⟩ := h
    exact ⟨isPlain_of_isWord (htarget.word rfl).1, value.plain_toSExpr hvalue, trivial⟩
  | binary op left right _, h => by
    simp only [signs, List.forall_mem_cons, List.forall_mem_append] at h
    obtain ⟨hleft, -, hright⟩ := h
    exact ⟨left.plain_toSExpr hleft, right.plain_toSExpr hright, trivial⟩
  | call callee arguments _, h => by
    simp only [signs, List.cons_append, List.forall_mem_cons, List.forall_mem_append] at h
    obtain ⟨hcallee, -, harguments, -⟩ := h
    exact ⟨isPlain_of_isWord (hcallee.word rfl).1, plain_toSExprList arguments harguments⟩

theorem plain_toSExprList : (es : List Expr) → (∀ s ∈ signsList es, s.IsLexical) →
    SExpr.PlainList (toSExprList es)
  | [], _ => trivial
  | [e], h => ⟨e.plain_toSExpr h, trivial⟩
  | e :: f :: others, h => by
    simp only [signsList, List.forall_mem_cons, List.forall_mem_append] at h
    obtain ⟨he, -, hothers⟩ := h
    exact ⟨e.plain_toSExpr he, plain_toSExprList (f :: others) hothers⟩

end

theorem ofWord_of_isWord {text : String} (h : IsWord text.toList) :
    ofWord text = symbol text default := by
  obtain ⟨c, tail, htext, hc, -⟩ := h
  have hdigit : c.isDigit = false := by
    rw [Bool.eq_false_iff]
    intro hdigit
    rw [isWordStart_of_isDigit hdigit] at hc
    cases hc
  rw [ofWord, htext, List.head?_cons, Option.any_some, hdigit]
  rfl

theorem ofWord_of_isNumber {text : String} (h : IsNumber text.toList) :
    ofWord text = number text default := by
  obtain ⟨c, tail, htext, hc⟩ := h.exists_digit
  rw [ofWord, htext, List.head?_cons, Option.any_some, hc]
  rfl

mutual

/-- An expression is read back from its s-expression. -/
theorem toExpr?_toSExpr : (e : Expr) → (∀ s ∈ e.signs, s.IsLexical) →
    e.toSExpr.toExpr? = some e.erase
  | symbol name _, h =>
    congrArg some (ofWord_of_isWord ((h _ (List.mem_singleton_self _)).word rfl).1)
  | number digits _, h =>
    congrArg some (ofWord_of_isNumber ((h _ (List.mem_singleton_self _)).number rfl))
  | string value _, _ => rfl
  | not operand _, h => by
    rw [signs, List.forall_mem_cons] at h
    simp only [toSExpr, SExpr.toExpr?, SExpr.toExprList?, operand.toExpr?_toSExpr h.2]
    rfl
  | group inner _, h => by
    simp only [signs, List.cons_append, List.forall_mem_cons, List.forall_mem_append] at h
    simp only [toSExpr, SExpr.toExpr?, SExpr.toExprList?, inner.toExpr?_toSExpr h.2.1]
    rfl
  | assign target value _, h => by
    simp only [signs, List.forall_mem_cons] at h
    obtain ⟨htarget, -, hvalue⟩ := h
    have hname : ofWord target = symbol target default := ofWord_of_isWord (htarget.word rfl).1
    simp only [toSExpr, SExpr.toExpr?, SExpr.toExprList?, value.toExpr?_toSExpr hvalue, hname]
    rfl
  | binary op left right _, h => by
    simp only [signs, List.forall_mem_cons, List.forall_mem_append] at h
    obtain ⟨hleft, -, hright⟩ := h
    simp only [toSExpr, SExpr.toExpr?, SExpr.toExprList?, left.toExpr?_toSExpr hleft,
      right.toExpr?_toSExpr hright]
    rfl
  | call callee arguments _, h => by
    simp only [signs, List.cons_append, List.forall_mem_cons, List.forall_mem_append] at h
    obtain ⟨hcallee, -, harguments, -⟩ := h
    have hname : ofWord callee = symbol callee default := ofWord_of_isWord (hcallee.word rfl).1
    simp only [toSExpr, SExpr.toExpr?, SExpr.toExprList?, hname,
      toExprList?_toSExprList arguments harguments]
    rfl

theorem toExprList?_toSExprList : (es : List Expr) → (∀ s ∈ signsList es, s.IsLexical) →
    SExpr.toExprList? (toSExprList es) = some (eraseList es)
  | [], _ => rfl
  | [e], h => by
    simp only [toSExprList, SExpr.toExprList?, e.toExpr?_toSExpr h]
    rfl
  | e :: f :: others, h => by
    simp only [signsList, List.forall_mem_cons, List.forall_mem_append] at h
    obtain ⟨he, -, hothers⟩ := h
    rw [toSExprList, SExpr.toExprList?, e.toExpr?_toSExpr he,
      toExprList?_toSExprList (f :: others) hothers]
    rfl

end

mutual

theorem shape_erase : (e : Expr) → e.erase.shape = e.shape
  | symbol .. | number .. | string .. => rfl
  | not operand _ => by rw [erase, shape, shape, operand.shape_erase]
  | group inner _ => by rw [erase, shape, shape, inner.shape_erase]
  | assign _ value _ => by rw [erase, shape, shape, value.shape_erase]
  | binary _ left right _ => by rw [erase, shape, shape, left.shape_erase, right.shape_erase]
  | call _ arguments _ => by rw [erase, shape, shape, shapeList_erase arguments]

theorem shapeList_erase : (es : List Expr) → shapeList (eraseList es) = shapeList es
  | [] => rfl
  | e :: rest => by rw [eraseList, shapeList, shapeList, e.shape_erase, shapeList_erase rest]

end

/-- **The shape of an expression determines it, and shows no places.** Two expressions, whether or
not a source could say them, have the same shape exactly if they differ in spans at most. Their
names have to be names and their numbers numbers; strings are any texts. -/
theorem shape_eq_iff_erase_eq {a b : Expr} (ha : ∀ sign ∈ a.signs, sign.IsLexical)
    (hb : ∀ sign ∈ b.signs, sign.IsLexical) : a.shape = b.shape ↔ a.erase = b.erase := by
  constructor
  · intro h
    have hend : Ends [] := by
      rintro c ⟨⟩
    have htext : a.toSExpr.text ++ [] = b.toSExpr.text ++ [] := by
      rw [← a.toList_shape, ← b.toList_shape, h]
    obtain ⟨hsame, -⟩ := SExpr.eq_of_text_append hend hend _ _ (a.plain_toSExpr ha)
      (b.plain_toSExpr hb) htext
    have hread := congrArg SExpr.toExpr? hsame
    rw [a.toExpr?_toSExpr ha, b.toExpr?_toSExpr hb] at hread
    exact Option.some.inj hread
  · intro h
    rw [← a.shape_erase, h, b.shape_erase]

/-- A function may be called `call`, and a literal may hold what ends a list. -/
theorem shape_eq_iff_erase_eq_at_call :
    (call "call" [string ") (\"" default, number "1.5" default] default).shape
        = "(call call \") (\\\"\" 1.5)" ∧
      ((call "call" [string ") (\"" default, number "1.5" default] default).shape
          = (group (call "call" [number "1.5" default] default) default).shape ↔
        (call "call" [string ") (\"" default, number "1.5" default] default).erase
          = (group (call "call" [number "1.5" default] default) default).erase) := by
  have hcall : (Sign.name "call").IsLexical :=
    ⟨fun _ => ⟨⟨'c', "all".toList, rfl, rfl, List.all_eq_true.1 rfl⟩, by decide +kernel⟩,
      by rintro ⟨⟩⟩
  have hnumber : (⟨.number, "1.5"⟩ : Sign).IsLexical :=
    ⟨by rintro ⟨⟩, fun _ => .inr ⟨['1'], ['5'], ⟨by decide, List.all_eq_true.1 rfl⟩,
      ⟨by decide, List.all_eq_true.1 rfl⟩, rfl⟩⟩
  have hother {sign : Sign} (hkind : sign.kind ≠ .identifier ∧ sign.kind ≠ .number) :
      sign.IsLexical := ⟨fun h => absurd h hkind.1, fun h => absurd h hkind.2⟩
  refine ⟨by decide +kernel, shape_eq_iff_erase_eq ?_ ?_⟩
  · simp only [signs, signsList, List.cons_append, List.nil_append, List.forall_mem_cons]
    exact ⟨hcall, hother (by decide), hother (by decide), hother (by decide), hnumber,
      hother (by decide), by simp⟩
  · simp only [signs, signsList, List.cons_append, List.nil_append, List.forall_mem_cons]
    exact ⟨hother (by decide), hcall, hother (by decide), hnumber, hother (by decide),
      hother (by decide), by simp⟩

end Expr

end ImpFront
