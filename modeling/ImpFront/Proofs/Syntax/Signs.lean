import ImpFront.Syntax.Sign
/-!
# ImpFront.Proofs.Syntax.Signs

**Tokens as signs.** A token keeps its kind in its sign; its text counts for the kinds
that have no spelling, and for the others it is the spelling.
-/

namespace ImpFront

/-! ### Kinds with a spelling -/

theorem BinaryOp.spelling?_kind (op : BinaryOp) : op.kind.spelling? = some op.kind.describe := by
  cases op <;> rfl

theorem Ty.spelling?_kind (t : Ty) : t.kind.spelling? = some t.kind.describe := by
  cases t <;> rfl

theorem AssignOp.spelling?_kind (op : AssignOp) : op.kind.spelling? = some op.kind.describe := by
  cases op <;> rfl

theorem StepOp.spelling?_kind (op : StepOp) : op.kind.spelling? = some op.kind.describe := by
  cases op <;> rfl

/-! ### Signs and tokens -/

namespace Sign

/-- The kind at the front of some signs; the end of the input is behind the last one. -/
def headKind : List Sign → Kind
  | [] => .eof
  | sign :: _ => sign.kind

@[simp] theorem headKind_nil : headKind [] = .eof := rfl

@[simp] theorem headKind_cons (sign : Sign) (rest : List Sign) :
    headKind (sign :: rest) = sign.kind := rfl

@[simp] theorem kind_fixed (k : Kind) : (fixed k).kind = k := rfl

@[simp] theorem kind_name (text : String) : (name text).kind = .identifier := rfl

theorem headKind_append {u : List Sign} (h : u ≠ []) (rest : List Sign) :
    headKind (u ++ rest) = headKind u := by
  obtain ⟨sign, u, rfl⟩ := List.exists_cons_of_ne_nil h
  rfl

end Sign

namespace Token

@[simp] theorem kind_sign (t : Token) : t.sign.kind = t.kind := by
  unfold sign
  split <;> rfl

/-- A token of a kind with one spelling is the sign of its kind. -/
theorem sign_of_spelled {t : Token} {k : Kind} (h : t.kind = k)
    (hk : k.spelling? = some k.describe) : t.sign = .fixed k := by
  unfold sign
  rw [h, hk]
  rfl

/-- A token of a kind without a spelling keeps its text. -/
theorem sign_of_unspelled {t : Token} {k : Kind} (h : t.kind = k) (hk : k.spelling? = none) :
    t.sign = ⟨k, t.text⟩ := by
  unfold sign
  rw [h, hk]

theorem text_of_sign_eq_name {t : Token} {text : String} (h : t.sign = .name text) :
    t.text = text := by
  have hkind : t.kind = .identifier := by rw [← kind_sign, h]; rfl
  rw [sign_of_unspelled hkind rfl] at h
  exact congrArg Sign.text h

end Token

end ImpFront
