import ImpFront.Proofs.Source.Places
/-!
# ImpFront.Proofs.Source.Moves

**Moves of a cursor.** A move that is not refused goes the bytes asked for, or to the end
of the text when there are fewer. So where a cursor is depends on the offset reached, and
not on the moves that led there.
-/

namespace ImpFront

open Position

/-- A split takes the bytes asked for, or all of them. -/
theorem splitBytes?_eq_some_iff {n : Nat} {cs taken rest : List Char} :
    splitBytes? n cs = some (taken, rest)
      ↔ taken ++ rest = cs ∧ byteLength taken = min n (byteLength cs) := by
  constructor
  · intro h
    refine ⟨append_of_splitBytes? h, ?_⟩
    fun_induction splitBytes? n cs generalizing taken rest with
    | case1 cs =>
      cases h
      simp
    | case2 n =>
      cases h
      simp
    | case3 n c cs hle ih =>
      obtain ⟨⟨t, r⟩, hs, heq⟩ := Option.map_eq_some_iff.1 h
      obtain ⟨rfl, rfl⟩ := Prod.mk.inj heq
      have := ih hs
      rw [byteLength_cons, byteLength_cons, this]
      omega
    | case4 n c cs hlt => cases h
  · rintro ⟨rfl, hlength⟩
    induction taken generalizing n with
    | nil =>
      rw [byteLength_nil, List.nil_append] at hlength
      cases n with
      | zero => rw [splitBytes?, List.nil_append]
      | succ n =>
        obtain rfl := byteLength_eq_zero_iff.1 (by omega : byteLength rest = 0)
        rfl
    | cons c taken ih =>
      rw [List.cons_append, byteLength_cons, byteLength_cons, byteLength_append] at hlength
      have := c.utf8Size_pos
      cases n with
      | zero => omega
      | succ n =>
        have hle : c.utf8Size ≤ n + 1 := by omega
        rw [List.cons_append, splitBytes?, if_pos hle, ih (by rw [byteLength_append]; omega)]
        rfl

namespace Cursor

variable {source : String} {c d : Cursor} {n : Nat}

/-- The cursor stands in the source, at the place that the text before it gives. -/
def Reads (c : Cursor) (source : String) : Prop :=
  ∃ before, source.toList = before ++ c.rest ∧ c.position = ofPrefix before

theorem reads_ofSource (source : String) : (ofSource source).Reads source := ⟨[], rfl, rfl⟩

theorem Reads.marks (h : c.Reads source) : c.position.Marks source := by
  obtain ⟨before, hsource, hposition⟩ := h
  exact ⟨before, c.rest, hsource, hposition⟩

/-- The offset decides the cursor. -/
theorem Reads.eq_of_offset (hc : c.Reads source) (hd : d.Reads source)
    (h : c.position.offset = d.position.offset) : c = d := by
  obtain ⟨position, rest⟩ := c
  obtain ⟨position', rest'⟩ := d
  obtain ⟨before, hsource, hposition⟩ := hc
  obtain ⟨before', hsource', hposition'⟩ := hd
  dsimp only at hsource hposition hsource' hposition' h
  subst hposition hposition'
  obtain ⟨rfl, rfl⟩ := eq_of_byteLength_eq (hsource.symm.trans hsource') h
  rfl

theorem advance?_eq_some_iff :
    c.advance? n = some d ↔ c.position.offset + n < Text.wordBound ∧ ∃ taken,
      taken ++ d.rest = c.rest ∧ byteLength taken = min n (byteLength c.rest)
        ∧ d.position = c.position.after taken := by
  obtain ⟨position, rest⟩ := d
  unfold advance?
  split
  · next hbound =>
    rw [Option.map_eq_some_iff]
    constructor
    · rintro ⟨⟨taken, rest'⟩, hsplit, heq⟩
      obtain ⟨rfl, rfl⟩ := Cursor.mk.inj heq
      obtain ⟨happend, hlength⟩ := splitBytes?_eq_some_iff.1 hsplit
      exact ⟨hbound, taken, happend, hlength, rfl⟩
    · rintro ⟨-, taken, happend, hlength, hposition⟩
      refine ⟨(taken, rest), splitBytes?_eq_some_iff.2 ⟨happend, hlength⟩, ?_⟩
      exact congrArg (Cursor.mk · rest) hposition.symm
  · next hbound => exact ⟨fun h => (by cases h), fun h => absurd h.1 hbound⟩

/-- A move stays in the source and goes the bytes asked for, or to the end. -/
theorem Reads.advance (hc : c.Reads source) (h : c.advance? n = some d) :
    d.Reads source
      ∧ d.position.offset = min (c.position.offset + n) source.utf8ByteSize := by
  obtain ⟨before, hsource, hposition⟩ := hc
  obtain ⟨-, taken, happend, hlength, hafter⟩ := advance?_eq_some_iff.1 h
  rw [hposition, after_ofPrefix] at hafter
  refine ⟨⟨before ++ taken, ?_, hafter⟩, ?_⟩
  · rw [hsource, ← happend, List.append_assoc]
  · rw [← byteLength_toList, hsource, hafter, hposition]
    simp only [ofPrefix, byteLength_append, hlength]
    omega

/-- A move is refused only inside a character. -/
theorem Reads.isSome_advance (hc : c.Reads source) {p : Position} (hp : p.Marks source)
    (hoffset : p.offset = min (c.position.offset + n) source.utf8ByteSize)
    (hbound : c.position.offset + n < Text.wordBound) : (c.advance? n).isSome = true := by
  have hle := hc.marks.offset_le
  obtain ⟨before, hsource, hposition⟩ := hc
  obtain ⟨before', behind', hsource', rfl⟩ := hp
  rw [hposition] at hle hoffset
  simp only [ofPrefix] at hle hoffset
  -- The target is not before the cursor, so the text before it goes on from there.
  obtain ⟨taken, rfl⟩ : before <+: before' := by
    rcases List.append_eq_append_iff.1 (hsource.symm.trans hsource') with ⟨x, hx, -⟩ | ⟨x, hx, -⟩
    · exact ⟨x, hx.symm⟩
    · have hlength := congrArg byteLength hx
      rw [byteLength_append] at hlength
      obtain rfl := byteLength_eq_zero_iff.1 (by omega : byteLength x = 0)
      rw [List.append_nil] at hx
      exact hx ▸ List.prefix_rfl
  rw [hsource, List.append_assoc] at hsource'
  have hrest := List.append_cancel_left hsource'
  refine Option.isSome_iff_exists.2 ⟨⟨c.position.after taken, behind'⟩, ?_⟩
  refine advance?_eq_some_iff.2 ⟨hbound, taken, hrest.symm, ?_, rfl⟩
  rw [← byteLength_toList, hsource, byteLength_append, byteLength_append] at hoffset
  omega

/-- One move after the other. -/
def advanceAll? (c : Cursor) (steps : List Nat) : Option Cursor := steps.foldlM advance? c

/-- **However a cursor moves, it stays in its source.** -/
theorem Reads.advanceAll (hc : c.Reads source) {steps : List Nat}
    (h : c.advanceAll? steps = some d) : d.Reads source := by
  induction steps generalizing c with
  | nil =>
    cases h
    exact hc
  | cons n steps ih =>
    rw [advanceAll?, List.foldlM_cons] at h
    obtain ⟨c', hc', h⟩ := Option.bind_eq_some_iff.1 h
    exact ih (hc.advance hc').1 h

end Cursor

end ImpFront
