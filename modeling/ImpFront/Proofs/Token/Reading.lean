import ImpFront.Token.Class
/-!
# ImpFront.Proofs.Token.Reading

**What the patterns read.** A lexeme that is read belongs to its class: words are words,
numbers are numbers, the body of a string ends at the first quote that no backslash
precedes, and a block comment at the first closing mark.
-/

namespace ImpFront.Lexeme

/-- Whether a lexeme is what its class says. -/
def IsProper : Lexeme → Prop
  | word t => IsWord t
  | number t => IsNumber t
  | blank t => IsBlanks t
  | string body => IsBody body
  | comment t => IsLineComment t ∨ IsBlockComment t
  | symbol kind => kind ∈ symbolOrder

/-! ### Extents -/

theorem isDigits_takeWhile {cs : List Char} (h : cs.takeWhile Char.isDigit ≠ []) :
    IsDigits (cs.takeWhile Char.isDigit) :=
  ⟨h, fun c hc => List.all_eq_true.1 List.all_takeWhile c hc⟩

theorem isNumber_numberText {c : Char} (hc : c.isDigit = true) (rest : List Char) :
    IsNumber (numberText (c :: rest)) := by
  have hwhole : IsDigits ((c :: rest).takeWhile Char.isDigit) :=
    isDigits_takeWhile (by simp [hc])
  unfold numberText
  dsimp only
  split
  · next tail _ =>
    split
    · exact .inl hwhole
    · next hfraction => exact .inr ⟨_, _, hwhole, isDigits_takeWhile hfraction, rfl⟩
  · exact .inl hwhole

theorem isBody_of_stringBody? {cs body : List Char} (h : stringBody? cs = some body) :
    IsBody body := by
  fun_induction stringBody? cs generalizing body with
  | case1 => cases h
  | case2 rest =>
    obtain rfl := Option.some.inj h
    exact IsBody.nil
  | case3 => cases h
  | case4 => cases h
  | case5 => cases h
  | case6 c rest hc ih =>
    obtain ⟨b, hb, rfl⟩ := Option.map_eq_some_iff.1 h
    exact IsBody.escape hc (ih hb)
  | case7 c rest hquote hnewline hend hbackslash ih =>
    obtain ⟨b, hb, rfl⟩ := Option.map_eq_some_iff.1 h
    have hc : c ≠ '\\' := by
      intro hc
      cases rest with
      | nil => exact hend hc rfl
      | cons d rest => exact hbackslash d rest hc rfl
    exact IsBody.char hquote hc hnewline (ih hb)

theorem exists_of_untilCommentEnd? {cs text : List Char} (h : untilCommentEnd? cs = some text) :
    ∃ body, text = body ++ ['*', '/'] ∧ ¬ ['*', '/'] <:+: body ++ ['*'] := by
  fun_induction untilCommentEnd? cs generalizing text with
  | case1 => cases h
  | case2 rest =>
    obtain rfl := Option.some.inj h
    exact ⟨[], rfl, by decide⟩
  | case3 c rest hstop ih =>
    obtain ⟨t, ht, rfl⟩ := Option.map_eq_some_iff.1 h
    obtain ⟨body, rfl, hbody⟩ := ih ht
    refine ⟨c :: body, rfl, ?_⟩
    rw [List.cons_append, List.infix_cons_iff]
    rintro (hbegins | hinfix)
    · -- The comment would have ended before `c` was passed.
      obtain ⟨hc, hslash⟩ := List.cons_prefix_cons.1 hbegins
      obtain ⟨tail, htail⟩ := untilCommentEnd?_prefix ht
      cases body with
      | nil => exact absurd hslash (by decide)
      | cons d body =>
        obtain ⟨rfl, -⟩ := List.cons_prefix_cons.1 hslash
        exact hstop _ hc.symm htail.symm
    · exact hbody hinfix

/-! ### Patterns -/

section Patterns

variable {cs : List Char} {l : Lexeme}

theorem isProper_of_wordPattern (h : wordPattern cs = some (.ok l)) : l.IsProper := by
  unfold wordPattern at h
  split at h
  · next c rest =>
    split at h
    · next hc =>
      cases h
      exact ⟨c, _, rfl, hc, fun d hd => List.all_eq_true.1 List.all_takeWhile d hd⟩
    · cases h
  · cases h

theorem isProper_of_numberPattern (h : numberPattern cs = some (.ok l)) : l.IsProper := by
  unfold numberPattern at h
  split at h
  · split at h
    · next hc =>
      cases h
      exact isNumber_numberText hc _
    · cases h
  · cases h

theorem isProper_of_blankPattern (h : blankPattern cs = some (.ok l)) : l.IsProper := by
  unfold blankPattern at h
  split at h
  · next c rest =>
    split at h
    · next hc =>
      cases h
      refine ⟨by simp, fun d hd => ?_⟩
      rcases List.mem_cons.1 hd with rfl | hd
      · exact hc
      · exact List.all_eq_true.1 List.all_takeWhile d hd
    · cases h
  · cases h

theorem isProper_of_stringPattern (h : stringPattern cs = some (.ok l)) : l.IsProper := by
  unfold stringPattern at h
  split at h
  · split at h
    · next hbody =>
      cases h
      exact isBody_of_stringBody? hbody
    · cases h
  · cases h

theorem isProper_of_lineCommentPattern (h : lineCommentPattern cs = some (.ok l)) :
    l.IsProper := by
  unfold lineCommentPattern at h
  split at h
  · cases h
    refine .inl ⟨_, fun hmem => ?_, rfl⟩
    simpa using List.all_eq_true.1 List.all_takeWhile _ hmem
  · cases h

theorem isProper_of_blockCommentPattern (h : blockCommentPattern cs = some (.ok l)) :
    l.IsProper := by
  unfold blockCommentPattern at h
  split at h
  · split at h
    · next htext =>
      cases h
      obtain ⟨body, rfl, hbody⟩ := exists_of_untilCommentEnd? htext
      exact .inr ⟨body, rfl, hbody⟩
    · cases h
  · cases h

theorem isProper_of_symbolPattern {kind : Kind} (hkind : kind ∈ symbolOrder)
    (h : symbolPattern kind cs = some (.ok l)) : l.IsProper := by
  unfold symbolPattern at h
  split at h
  · cases h
    exact hkind
  · cases h

theorem isProper_of_mem_patterns {p : Pattern} (hp : p ∈ patterns) (h : p cs = some (.ok l)) :
    l.IsProper := by
  simp only [patterns, List.mem_append, List.mem_cons, List.not_mem_nil, or_false,
    List.mem_map] at hp
  rcases hp with (rfl | rfl | rfl | rfl | rfl | rfl) | ⟨kind, hkind, rfl⟩
  · exact isProper_of_wordPattern h
  · exact isProper_of_numberPattern h
  · exact isProper_of_blankPattern h
  · exact isProper_of_stringPattern h
  · exact isProper_of_lineCommentPattern h
  · exact isProper_of_blockCommentPattern h
  · exact isProper_of_symbolPattern hkind h

/-- The lexeme read belongs to its class. -/
theorem isProper_of_first (h : first cs = .ok l) : l.IsProper := by
  unfold first at h
  cases hf : patterns.findSome? (· cs) with
  | none =>
    rw [hf] at h
    cases h
  | some r =>
    rw [hf, Option.getD_some] at h
    obtain ⟨p, hp, hpc⟩ := List.exists_of_findSome?_eq_some hf
    exact isProper_of_mem_patterns hp (h ▸ hpc)

end Patterns

end ImpFront.Lexeme
