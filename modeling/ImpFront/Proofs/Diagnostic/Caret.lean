import ImpFront.Diagnostic.Render
import ImpFront.Proofs.Parse.ErrorPlace
import ImpFront.Proofs.Source.Lines
import ImpFront.Proofs.Token.Joined
import ImpFront.Proofs.Token.Places
/-!
# ImpFront.Proofs.Diagnostic.Caret

**The caret points at the offending character.** Two rows of a rendering belong together, the
shown line and the caret below it, and what brings them into step is computed in five places: the
column of the diagnostic, the line of the source, the carriage returns and the blanks that are
dropped at its end, the indentation that is dropped at its start, and the margin on the left.

They agree because of where a source is refused: at the start of a token or of something that is
none, so never at a blank (`Position.Points`). What is dropped from the line are blanks behind that
place and in front of it, and of those in front the caret knows the number.
-/

namespace ImpFront

open Position Text

/-! ### The place of a refusal -/

namespace Program

variable {settings : Settings} {source : String} {d : Diagnostic}

theorem ofSource_eq_error_iff : ofSource settings source = .error d ↔
    Token.scan source = .error d
      ∨ ∃ ts s, Token.scan source = .ok ts ∧ parseTokens settings ts = .error d s := by
  unfold ofSource
  cases hscan : Token.scan source with
  | error e =>
    constructor
    · intro h
      exact .inl (congrArg Except.error (Except.error.inj h))
    · rintro (h | ⟨ts, s, h, -⟩)
      · exact congrArg Except.error (Except.error.inj h)
      · cases h
  | ok ts =>
    constructor
    · intro h
      obtain ⟨s, hs⟩ := ofTokens_eq_error_iff.1 h
      exact .inr ⟨ts, s, rfl, hs⟩
    · rintro (h | ⟨ts', s, h, hs⟩)
      · cases h
      · cases h
        exact ofTokens_eq_error_iff.2 ⟨s, hs⟩

/-- A parse of scanned tokens fails for one of them. -/
theorem mem_of_parseTokens_error {ts : List Token} {s : State} (hscan : Token.scan source = .ok ts)
    (h : parseTokens settings ts = .error d s) : s.current ∈ ts := by
  obtain ⟨read, more, agenda, r, hwhole, -⟩ := exists_refusal_of_error h
  -- A scan closes its tokens, so the refused one is among them.
  obtain ⟨others, p, rfl, -⟩ := Token.exists_others_of_scan hscan
  have hclosed : Stream.missingEnd (others ++ [Token.endAt p]) = [] := by
    unfold Stream.missingEnd Stream.closed
    rw [List.getLast?_concat]
    rfl
  rw [Stream.whole, hclosed, List.append_nil] at hwhole
  rw [hwhole]
  simp

/-- A source that is not too large is refused at a place where no blank is. -/
theorem points_of_ofSource_error (hsize : source.utf8ByteSize ≤ Cause.maxSourceBytes)
    (h : ofSource settings source = .error d) : d.position.Points source := by
  rcases ofSource_eq_error_iff.1 h with hscan | ⟨ts, s, hscan, hparse⟩
  · exact Token.points_of_scan_error hsize hscan
  · obtain ⟨-, -, -, r, -, -, -, -, rfl⟩ := exists_refusal_of_error hparse
    exact (Token.points_of_scan hscan _ (mem_of_parseTokens_error hscan hparse)).1

end Program

/-! ### The shown line -/

namespace Diagnostic

variable {d : Diagnostic} {source : String}

/-- The line at a diagnostic. -/
def line (d : Diagnostic) (source : String) : List Char :=
  ((line? source d.position.line).getD "").toList

/-- How many characters indent the line. -/
def indent (d : Diagnostic) (source : String) : Nat :=
  ((d.line source).takeWhile isIndent).length

/-- The row with the line. -/
def lineRow (d : Diagnostic) (source : String) : List Char :=
  (toString d.position.line).toList ++ [' ', '|', ' ']
    ++ trimEnd ((d.line source).drop (d.indent source))

/-- The row with the caret. -/
def caretRow (d : Diagnostic) (source : String) : List Char :=
  List.replicate ((toString d.position.line).length + 1) ' ' ++ ['|', ' ']
    ++ List.replicate (max 1 (d.position.column - d.indent source) - 1) '-' ++ ['^']

/-- The row with the place. -/
def placeRow (d : Diagnostic) (file : String) : List Char :=
  ['-', '>', ' '] ++ file.toList ++ ':' :: d.position.text.toList

/-- The row with the bar. -/
def barRow (d : Diagnostic) : List Char :=
  List.replicate ((toString d.position.line).length + 1) ' ' ++ ['|']

/-- The rows of a rendering. -/
theorem map_toList_rows (d : Diagnostic) (source file : String) :
    (d.rows source file).map String.toList
      = [d.headline.toList, d.placeRow file, d.barRow, d.lineRow source, d.caretRow source] := by
  have hplace : ("-> " ++ file ++ ":" ++ d.position.text).toList = d.placeRow file := by
    rw [placeRow]
    simp
  have hbar : (bar ((toString d.position.line).length + 2)).toList = d.barRow := by
    rw [bar, barRow]
    simp
  have hline : (toString d.position.line ++ " | " ++ String.ofList (trimEnd
      ((d.line source).drop (d.indent source)))).toList = d.lineRow source := by
    rw [lineRow]
    simp only [String.toList_append, String.toList_ofList]
    rfl
  have hcaret : (bar ((toString d.position.line).length + 2) ++ " "
      ++ caret (max 1 (d.position.column - d.indent source))).toList = d.caretRow source := by
    rw [bar, caret, caretRow]
    simp
  rw [← hplace, ← hbar, ← hline, ← hcaret]
  rfl

/-- A rendering is its rows, one below the other. -/
theorem toList_render (d : Diagnostic) (source file : String) : (d.render source file).toList
    = ['\n'].intercalate
      [d.headline.toList, d.placeRow file, d.barRow, d.lineRow source, d.caretRow source] := by
  rw [render, String.toList_intercalate, map_toList_rows]
  rfl

/-- A rendering ends in the line and the caret. -/
theorem exists_toList_render (d : Diagnostic) (source file : String) :
    ∃ front, (d.render source file).toList
      = front ++ '\n' :: (d.lineRow source ++ '\n' :: d.caretRow source) := by
  refine ⟨['\n'].intercalate [d.headline.toList, d.placeRow file, d.barRow], ?_⟩
  rw [toList_render]
  simp [List.intercalate_cons_cons]

/-! ### The shown line and its place -/

variable {before behind : List Char}

/-- The line of a place ends in front of the next newline, and in front of the carriage returns
there. -/
theorem line?_eq (hsource : source.toList = before ++ behind) (hp : d.position = ofPrefix before) :
    line? source d.position.line = some (String.ofList
      (dropEndWhile (· = '\r') (lastLine before ++ behind.takeWhile (· ≠ '\n')))) := by
  have hnumber : d.position.line - 1 = before.count '\n' := by
    rw [hp]
    exact Nat.add_sub_cancel_left ..
  rw [line?, hnumber, hsource, getElem?_splitLines]
  rfl

theorem line_eq (hsource : source.toList = before ++ behind) (hp : d.position = ofPrefix before) :
    d.line source
      = dropEndWhile (· = '\r') (lastLine before ++ behind.takeWhile (· ≠ '\n')) := by
  rw [line, line?_eq hsource hp, Option.getD_some, String.toList_ofList]

theorem newline_not_mem_line (d : Diagnostic) (source : String) : '\n' ∉ d.line source := by
  intro h
  rw [line, line?] at h
  cases hline : (splitLines source.toList)[d.position.line - 1]? with
  | none => simp [hline] at h
  | some text =>
    rw [hline, Option.map_some, Option.getD_some, String.toList_ofList] at h
    exact newline_not_mem_of_mem_splitLines (List.mem_of_getElem? hline)
      ((dropEndWhile_isPrefix _ _).subset h)

theorem newline_not_mem_toString (n : Nat) : '\n' ∉ (toString n).toList := by
  intro h
  have hdigit : '\n'.isDigit = true := by
    refine Nat.isDigit_of_mem_toDigits (b := 10) (n := n) (by decide) (by decide) ?_
    simpa using h
  exact absurd hdigit (by decide)

theorem newline_not_mem_lineRow (d : Diagnostic) (source : String) : '\n' ∉ d.lineRow source := by
  intro h
  rw [lineRow] at h
  rcases List.mem_append.1 h with hmargin | htext
  · rcases List.mem_append.1 hmargin with hnumber | hbar
    · exact newline_not_mem_toString _ hnumber
    · exact absurd hbar (by decide)
  · exact newline_not_mem_line d source
      (List.mem_of_mem_drop ((dropEndWhile_isPrefix _ _).subset htext))

theorem newline_not_mem_caretRow (d : Diagnostic) (source : String) :
    '\n' ∉ d.caretRow source := by
  simp [caretRow]

/-- A character that is no blank is shown, as far behind the margin as the text before it is wide
without the indentation. -/
theorem getElem?_lineRow {c : Char} (hsource : source.toList = before ++ c :: behind)
    (hp : d.position = ofPrefix before) (hc : isBlank c = false) :
    d.indent source ≤ (lastLine before).length
    ∧ (d.lineRow source)[(toString d.position.line).length + 3
        + ((lastLine before).length - d.indent source)]? = some c := by
  have hnewline : c ≠ '\n' := by
    rintro rfl
    cases hc
  have hreturn : c ≠ '\r' := by
    rintro rfl
    cases hc
  have hindent : isIndent c = false := by
    refine Bool.eq_false_iff.2 fun h => ?_
    rw [isIndent, Bool.or_eq_true, decide_eq_true_eq, decide_eq_true_eq] at h
    rcases h with rfl | rfl <;> cases hc
  obtain ⟨rest, hline⟩ : ∃ rest, d.line source = lastLine before ++ c :: rest := by
    rw [line_eq hsource hp, List.takeWhile_cons_of_pos (by simpa using hnewline),
      dropEndWhile_append_cons (by simpa using hreturn)]
    exact ⟨_, rfl⟩
  have hle : d.indent source ≤ (lastLine before).length := by
    rw [indent, hline, List.takeWhile_append, List.takeWhile_cons_of_neg (by simp [hindent]),
      List.append_nil]
    split
    · exact Nat.le_refl _
    · exact (List.takeWhile_sublist _).length_le
  refine ⟨hle, ?_⟩
  have hindex : (toString d.position.line).length + 3 + ((lastLine before).length - d.indent source)
      = ((toString d.position.line).toList ++ [' ', '|', ' ']
        ++ (lastLine before).drop (d.indent source)).length := by
    simp only [List.length_append, List.length_drop, String.length_toList, List.length_cons,
      List.length_nil]
  rw [lineRow, hline, List.drop_append_of_le_length hle, trimEnd, dropEndWhile_append_cons hc,
    ← List.append_assoc, hindex, List.getElem?_append_right (Nat.le_refl _), Nat.sub_self]
  rfl

/-- At the end of the source, the whole row is in front of that place. -/
theorem length_lineRow_le (hsource : source.toList = before) (hp : d.position = ofPrefix before) :
    d.indent source ≤ (lastLine before).length
    ∧ (d.lineRow source).length ≤ (toString d.position.line).length + 3
        + ((lastLine before).length - d.indent source) := by
  have hline : d.line source <+: lastLine before := by
    rw [line_eq (hsource.trans (List.append_nil before).symm) hp, List.takeWhile_nil,
      List.append_nil]
    exact dropEndWhile_isPrefix _ _
  have hindent : d.indent source ≤ (d.line source).length :=
    (List.takeWhile_sublist _).length_le
  have htext : (trimEnd ((d.line source).drop (d.indent source))).length
      ≤ (d.line source).length - d.indent source := by
    rw [← List.length_drop]
    exact (dropEndWhile_isPrefix _ _).length_le
  have hlength := hline.length_le
  refine ⟨Nat.le_trans hindent hlength, ?_⟩
  simp only [lineRow, List.length_append, String.length_toList, List.length_cons, List.length_nil]
  omega

/-! ### The caret -/

/-- There is one caret in the row, behind the margin and the rule. -/
theorem getElem?_caretRow_iff (d : Diagnostic) (source : String) (j : Nat) :
    (d.caretRow source)[j]? = some '^' ↔ j = (toString d.position.line).length + 2
      + max 1 (d.position.column - d.indent source) := by
  have hnot : '^' ∉ List.replicate ((toString d.position.line).length + 1) ' ' ++ ['|', ' ']
      ++ List.replicate (max 1 (d.position.column - d.indent source) - 1) '-' := by
    simp
  have hlength : (List.replicate ((toString d.position.line).length + 1) ' ' ++ ['|', ' ']
      ++ List.replicate (max 1 (d.position.column - d.indent source) - 1) '-').length
        = (toString d.position.line).length + 2
          + max 1 (d.position.column - d.indent source) := by
    simp only [List.length_append, List.length_replicate, List.length_cons, List.length_nil]
    omega
  rw [caretRow, ← hlength]
  constructor
  · intro h
    by_contra hne
    rcases Nat.lt_or_gt_of_ne hne with hlt | hgt
    · rw [List.getElem?_append_left hlt] at h
      exact hnot (List.mem_of_getElem? h)
    · rw [List.getElem?_eq_none (by rw [List.length_append]; exact hgt)] at h
      cases h
  · rintro rfl
    exact List.getElem?_concat_length

end Diagnostic

namespace Program

open Diagnostic

variable {settings : Settings} {source : String} {d : Diagnostic}

/-- **The caret points at the offending character.** Let a source below the limit be refused, and be
rendered under any file name. Then there is a line of the diagnostic's number, and its indentation
ends before the diagnostic's column, so the caret is moved left by just that much. The last two rows
are the shown line behind its number and a row with one caret; below the character of the source at
which it is refused, or behind the line if it is refused at its end. -/
theorem caret_points (file : String) (hsize : source.utf8ByteSize < Cause.maxSourceBytes)
    (h : ofSource settings source = .error d) :
    (line? source d.position.line).isSome = true
    ∧ d.indent source + max 1 (d.position.column - d.indent source) = d.position.column
    ∧ ∃ above T C i, splitLines (d.render source file).toList = above ++ [T, C]
      ∧ (∃ text, T = (toString d.position.line).toList ++ [' ', '|', ' '] ++ text)
      ∧ (∀ j, C[j]? = some '^' ↔ j = i)
      ∧ (d.position.offset < source.utf8ByteSize →
          ∃ before c behind, source.toList = before ++ c :: behind
            ∧ byteLength before = d.position.offset ∧ T[i]? = some c)
      ∧ (source.utf8ByteSize ≤ d.position.offset →
          d.position.offset = source.utf8ByteSize ∧ T.length ≤ i) := by
  obtain ⟨before, behind, hsource, hp, hhead⟩ := points_of_ofSource_error (Nat.le_of_lt hsize) h
  have hcolumn : d.position.column = 1 + (lastLine before).length := by rw [hp]; rfl
  have hoffset : d.position.offset = byteLength before := by rw [hp]; rfl
  have hbytes : source.utf8ByteSize = byteLength before + byteLength behind := by
    rw [← byteLength_toList, hsource, byteLength_append]
  obtain ⟨front, hrender⟩ := d.exists_toList_render source file
  obtain ⟨above, habove⟩ := exists_splitLines_of_rows (newline_not_mem_lineRow d source)
    (newline_not_mem_caretRow d source) front
  rw [← hrender] at habove
  -- The place is behind the indentation, whether a character stands there or the source ends.
  have hindent : d.indent source ≤ (lastLine before).length := by
    cases behind with
    | nil => exact (length_lineRow_le (hsource.trans (List.append_nil before)) hp).1
    | cons c rest => exact (getElem?_lineRow hsource hp (hhead c rfl)).1
  have hplace (margin : Nat) : margin + 2 + max 1 (d.position.column - d.indent source)
      = margin + 3 + ((lastLine before).length - d.indent source) := by
    omega
  refine ⟨by rw [line?_eq hsource hp]; rfl, by omega, above, d.lineRow source, d.caretRow source, _,
    habove, ⟨_, rfl⟩, getElem?_caretRow_iff d source, fun hlt => ?_, fun hle => ?_⟩
  · cases behind with
    | nil =>
      rw [byteLength_nil] at hbytes
      omega
    | cons c rest =>
      refine ⟨before, c, rest, hsource, hoffset.symm, ?_⟩
      rw [hplace]
      exact (getElem?_lineRow hsource hp (hhead c rfl)).2
  · have hbehind : behind = [] := byteLength_eq_zero_iff.1 (by omega)
    rw [hbehind] at hsource hbytes
    have hrow := (length_lineRow_le (hsource.trans (List.append_nil before)) hp).2
    rw [byteLength_nil] at hbytes
    rw [hplace]
    exact ⟨by omega, hrow⟩

theorem caret_points_at_tab :
    ofSource ⟨8⟩ "\tint é;" = .error ⟨.unrecognisedToken "é", ⟨5, 1, 6⟩⟩
      ∧ ∃ (above : List (List Char)) (T C : List Char) (i : Nat),
          splitLines (Diagnostic.render ⟨.unrecognisedToken "é", ⟨5, 1, 6⟩⟩ "\tint é;"
            "main.ml").toList = above ++ [T, C]
          ∧ C[i]? = some '^' ∧ T[i]? = some 'é' := by
  have h : ofSource ⟨8⟩ "\tint é;" = .error ⟨.unrecognisedToken "é", ⟨5, 1, 6⟩⟩ := by
    decide +kernel
  obtain ⟨-, -, above, T, C, i, hrows, -, hcaret, hshown, -⟩ :=
    caret_points "main.ml" (by decide) h
  obtain ⟨before, c, behind, hsource, hbytes, hc⟩ := hshown (by decide)
  have hcut : ['\t', 'i', 'n', 't', ' '] ++ ['é', ';'] = before ++ c :: behind := hsource
  obtain ⟨-, hbehind⟩ := eq_of_byteLength_eq hcut hbytes.symm
  obtain ⟨rfl, -⟩ := List.cons_eq_cons.1 hbehind
  exact ⟨h, above, T, C, i, hrows, (hcaret i).2 rfl, hc⟩

end Program

end ImpFront
