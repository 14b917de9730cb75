import ImpFront.Source.Cursor
import ImpFront.Text.Blank
import Mathlib.Data.String.Basic
/-!
# ImpFront.Proofs.Source.Places

**Places of a source in closed form.** A place that is reached character by character is the
one that `Position.ofPrefix` computes from the text before it, so it is known from its
offset alone. `Position.Marks` says that a place is such a place of a source, and
`Slice` what stands between two of them.
-/

namespace ImpFront

namespace Position

/-! ### Byte lengths -/

theorem byteLength_toList (source : String) :
    byteLength source.toList = source.utf8ByteSize := by
  have hlength (text : List Char) : byteLength text = String.utf8Len text := by
    induction text with
    | nil => rfl
    | cons c text ih => rw [byteLength_cons, ih, String.utf8Len_cons, Nat.add_comm]
  rw [hlength, String.utf8Len_toList]

theorem byteLength_eq_zero_iff {text : List Char} : byteLength text = 0 ↔ text = [] := by
  cases text with
  | nil => simp
  | cons c text =>
    have := c.utf8Size_pos
    simp only [byteLength_cons, reduceCtorEq, iff_false]
    omega

theorem length_le_byteLength (text : List Char) : text.length ≤ byteLength text := by
  induction text with
  | nil => exact Nat.le_refl _
  | cons c text ih =>
    have := c.utf8Size_pos
    rw [List.length_cons, byteLength_cons]
    omega

/-- A text is cut at a byte in at most one way. -/
theorem eq_of_byteLength_eq {a b c d : List Char} (h : a ++ b = c ++ d)
    (hlength : byteLength a = byteLength c) : a = c ∧ b = d := by
  rcases List.append_eq_append_iff.1 h with ⟨x, rfl, rfl⟩ | ⟨x, rfl, rfl⟩
  · rw [byteLength_append] at hlength
    obtain rfl := byteLength_eq_zero_iff.1 (by omega : byteLength x = 0)
    simp
  · rw [byteLength_append] at hlength
    obtain rfl := byteLength_eq_zero_iff.1 (by omega : byteLength x = 0)
    simp

/-! ### The closed form -/

theorem lastLine_append_newline (text : List Char) : lastLine (text ++ ['\n']) = [] := by
  simp [lastLine]

theorem lastLine_append_of_ne {c : Char} (h : c ≠ '\n') (text : List Char) :
    lastLine (text ++ [c]) = lastLine text ++ [c] := by
  simp [lastLine, h]

theorem step_ofPrefix (text : List Char) (c : Char) :
    (ofPrefix text).step c = ofPrefix (text ++ [c]) := by
  unfold step ofPrefix
  by_cases h : c = '\n'
  · subst h
    rw [if_pos rfl, lastLine_append_newline]
    simp [Nat.add_assoc]
  · rw [if_neg h, lastLine_append_of_ne h]
    simp [h, Nat.add_assoc]

/-- Moving along a text from behind a prefix ends behind both. -/
theorem after_ofPrefix (before text : List Char) :
    (ofPrefix before).after text = ofPrefix (before ++ text) := by
  induction text generalizing before with
  | nil => rw [after_nil, List.append_nil]
  | cons c text ih => rw [after_cons, step_ofPrefix, ih, List.append_assoc, List.singleton_append]

/-! ### Places of a source -/

/-- The place stands before, between or behind the characters of a source. -/
def Marks (p : Position) (source : String) : Prop :=
  ∃ before behind, source.toList = before ++ behind ∧ p = ofPrefix before

variable {p q : Position} {source : String}

/-- The offset decides the place. -/
theorem Marks.eq_of_offset (hp : p.Marks source) (hq : q.Marks source)
    (h : p.offset = q.offset) : p = q := by
  obtain ⟨before, behind, hsource, rfl⟩ := hp
  obtain ⟨before', behind', hsource', rfl⟩ := hq
  obtain ⟨rfl, -⟩ := eq_of_byteLength_eq (hsource.symm.trans hsource') h
  rfl

theorem Marks.offset_le (hp : p.Marks source) : p.offset ≤ source.utf8ByteSize := by
  obtain ⟨before, behind, hsource, rfl⟩ := hp
  rw [← byteLength_toList, hsource, byteLength_append]
  exact Nat.le_add_right ..

theorem length_lastLine_le (text : List Char) : (lastLine text).length ≤ text.length := by
  unfold lastLine
  rw [List.length_reverse]
  exact (List.takeWhile_sublist _).length_le.trans_eq List.length_reverse

/-- Lines and columns are no larger than the source, counted from one. -/
theorem Marks.line_column_le (hp : p.Marks source) :
    p.line ≤ 1 + source.utf8ByteSize ∧ p.column ≤ 1 + source.utf8ByteSize := by
  have hle := hp.offset_le
  obtain ⟨before, behind, -, rfl⟩ := hp
  have hlength := length_le_byteLength before
  have hline := length_lastLine_le before
  have hcount : before.count '\n' ≤ before.length := List.count_le_length
  simp only [ofPrefix] at hle ⊢
  omega

/-- The place is one of a source, and no blank stands behind it. -/
def Points (p : Position) (source : String) : Prop :=
  ∃ before behind, source.toList = before ++ behind ∧ p = ofPrefix before
    ∧ ∀ c ∈ behind.head?, Text.isBlank c = false

theorem Points.marks (hp : p.Points source) : p.Marks source := by
  obtain ⟨before, behind, hsource, rfl, -⟩ := hp
  exact ⟨before, behind, hsource, rfl⟩

end Position

open Position

/-! ### Stretches of a source -/

/-- The piece is what stands between two byte offsets of a text. -/
def Slice (text : List Char) (start stop : Nat) (piece : List Char) : Prop :=
  ∃ before behind, text = before ++ piece ++ behind ∧ byteLength before = start
    ∧ byteLength (before ++ piece) = stop

namespace Slice

variable {text piece piece' : List Char} {a b c : Nat}

/-- Two offsets enclose at most one piece. -/
theorem eq_of_slice (h : Slice text a b piece) (h' : Slice text a b piece') : piece = piece' := by
  obtain ⟨before, behind, htext, ha, hb⟩ := h
  obtain ⟨before', behind', htext', ha', hb'⟩ := h'
  obtain ⟨hpiece, -⟩ := eq_of_byteLength_eq (htext.symm.trans htext') (hb.trans hb'.symm)
  exact (eq_of_byteLength_eq hpiece (ha.trans ha'.symm)).2

theorem le (h : Slice text a b piece) : a ≤ b := by
  obtain ⟨before, behind, -, rfl, rfl⟩ := h
  rw [byteLength_append]
  exact Nat.le_add_right ..

theorem lt_of_ne_nil (h : Slice text a b piece) (hne : piece ≠ []) : a < b := by
  obtain ⟨before, behind, -, rfl, rfl⟩ := h
  have hpos := Nat.pos_of_ne_zero (mt byteLength_eq_zero_iff.1 hne)
  rw [byteLength_append]
  omega

/-- Pieces that meet make one piece. -/
theorem append (h : Slice text a b piece) (h' : Slice text b c piece') :
    Slice text a c (piece ++ piece') := by
  obtain ⟨before, behind, htext, ha, hb⟩ := h
  obtain ⟨before', behind', htext', hb', hc⟩ := h'
  rw [List.append_assoc before'] at htext'
  obtain ⟨rfl, rfl⟩ := eq_of_byteLength_eq (htext.symm.trans htext') (hb.trans hb'.symm)
  refine ⟨before, behind', ?_, ha, ?_⟩
  · rw [htext]
    simp only [List.append_assoc]
  · rw [← hc, List.append_assoc]

end Slice

end ImpFront
