import ImpFront.Proofs.Diagnostic.Caret
import ImpFront.Proofs.Token.Faults
/-!
# ImpFront.Proofs.Diagnostic.Rows

**The rows of a rendering.** A rendering has five rows, of which the last four are one line each
whatever the source is (`Diagnostic.splitLines_render`). The headline shows the text of the token
that is refused, and that text has a newline only if it is the value of a string literal: no other
lexeme that becomes a token goes over the end of a line.
-/

namespace ImpFront

open Position Text

/-! ### The advice -/

/-- What is in no row and not between them is not in the whole. -/
theorem not_mem_intercalate {x : Char} {between : List Char} {rows : List (List Char)}
    (hbetween : x ∉ between) (h : ∀ row ∈ rows, x ∉ row) : x ∉ between.intercalate rows := by
  induction rows with
  | nil => exact List.not_mem_nil
  | cons row rows ih =>
    obtain ⟨hrow, hrows⟩ := List.forall_mem_cons.1 h
    cases rows with
    | nil => simpa using hrow
    | cons next rows =>
      rw [List.intercalate_cons_cons, List.mem_append, List.mem_append]
      exact not_or.2 ⟨not_or.2 ⟨hrow, hbetween⟩, ih hrows⟩

namespace Kind

theorem newline_not_mem_describe (k : Kind) : '\n' ∉ k.describe.toList := by
  cases k <;> decide

/-- A list of kinds is described on one line. -/
theorem newline_not_mem_describeAll (kinds : List Kind) : '\n' ∉ (describeAll kinds).toList := by
  have hone : ∀ text ∈ kinds.map (fun kind => "`" ++ kind.describe ++ "`"), '\n' ∉ text.toList := by
    intro text htext
    obtain ⟨kind, -, rfl⟩ := List.mem_map.1 htext
    simp [newline_not_mem_describe kind]
  unfold describeAll
  split
  · decide
  · next one hdescribed => exact hone one (by simp [hdescribed])
  · next described _ _ =>
    have hall : ∀ row ∈ (kinds.map fun kind => "`" ++ kind.describe ++ "`").map String.toList,
        '\n' ∉ row := by
      intro row hrow
      obtain ⟨text, htext, rfl⟩ := List.mem_map.1 hrow
      exact hone text htext
    rw [String.toList_append, String.toList_intercalate, List.mem_append]
    exact not_or.2 ⟨by decide, not_mem_intercalate (by decide) hall⟩

end Kind

/-- The newlines that the advice takes over from the text it shows. -/
def Cause.newlines : Cause → Nat
  | .unexpectedToken text _ _ | .expectedExpression text _ => text.toList.count '\n'
  | _ => 0

namespace Diagnostic

variable {d : Diagnostic} {source file : String}

theorem newline_not_mem_name (cause : Cause) : '\n' ∉ cause.name.toList := by
  cases cause <;> simp [Cause.name]

/-- What stands around a text does not change the number of its newlines, if it has none. -/
theorem count_around {front back : String} (hfront : '\n' ∉ front.toList)
    (hback : '\n' ∉ back.toList) (text : String) :
    (front ++ (text ++ back)).toList.count '\n' = text.toList.count '\n' := by
  rw [String.toList_append, String.toList_append, List.count_append, List.count_append,
    List.count_eq_zero.2 hfront, List.count_eq_zero.2 hback, Nat.zero_add, Nat.add_zero]

/-- The advice has no newlines but those of the text it shows. -/
theorem count_tip (cause : Cause) : ∀ tip ∈ cause.tip?, tip.toList.count '\n' = cause.newlines := by
  intro tip htip
  have hkinds := Kind.newline_not_mem_describeAll
  have hnumber (n : Nat) : '\n' ∉ Nat.toDigits 10 n := by simpa using newline_not_mem_toString n
  cases cause with
  | unrecognisedToken text => cases htip
  | unterminatedString | unterminatedComment | unclosedBlock _ =>
    obtain rfl := Option.some.inj htip
    exact List.count_eq_zero.2 (by simp)
  | sourceTooLarge bytes =>
    obtain rfl := Option.some.inj htip
    exact List.count_eq_zero.2 (by simp [hnumber])
  | unexpectedToken text found expected =>
    rw [Cause.tip?] at htip
    split at htip <;> obtain rfl := Option.some.inj htip <;> simp only [String.append_assoc] <;>
      exact count_around (by simp) (by simp [hkinds]) text
  | expectedExpression text found =>
    obtain rfl := Option.some.inj htip
    rw [String.append_assoc]
    exact count_around (by simp [hkinds]) (by simp) text
  | nestingTooDeep limit =>
    obtain rfl := Option.some.inj htip
    exact List.count_eq_zero.2 (by simp [hnumber])

/-- Without advice, no text is shown. -/
theorem newlines_of_tip?_eq_none {cause : Cause} (h : cause.tip? = none) : cause.newlines = 0 := by
  cases cause with
  | unrecognisedToken text => rfl
  | unexpectedToken text found expected =>
    rw [Cause.tip?] at h
    split at h <;> cases h
  | _ => cases h

/-- The headline has no newlines but those of the text it shows. -/
theorem count_headline (d : Diagnostic) : d.headline.toList.count '\n' = d.cause.newlines := by
  have hname := List.count_eq_zero.2 (newline_not_mem_name d.cause)
  unfold headline
  split
  · next hnone => simp [hname, newlines_of_tip?_eq_none hnone]
  · next tip htip => simp [hname, count_tip d.cause tip htip]

/-! ### The rows -/

theorem newline_not_mem_placeRow (h : '\n' ∉ file.toList) (d : Diagnostic) :
    '\n' ∉ d.placeRow file := by
  have hplace : '\n' ∉ d.position.text.toList := by
    have hnumber (n : Nat) : '\n' ∉ Nat.toDigits 10 n := by
      simpa using newline_not_mem_toString n
    have hcolon : toString ":" = ":" := rfl
    simp [Position.text, hnumber, hcolon]
  simp [placeRow, h, hplace]

theorem newline_not_mem_barRow (d : Diagnostic) : '\n' ∉ d.barRow := by
  simp [barRow]

/-- **A rendering is a headline and four lines.** -/
theorem splitLines_render (h : '\n' ∉ file.toList) (d : Diagnostic) (source : String) :
    splitLines (d.render source file).toList
      = splitLines d.headline.toList
        ++ [d.placeRow file, d.barRow, d.lineRow source, d.caretRow source] := by
  rw [toList_render, splitLines_intercalate (List.cons_ne_nil _ _), List.flatMap_cons]
  simp only [List.flatMap_cons, List.flatMap_nil, List.append_nil,
    splitLines_of_newline_free (newline_not_mem_placeRow h d),
    splitLines_of_newline_free (newline_not_mem_barRow d),
    splitLines_of_newline_free (newline_not_mem_lineRow d source),
    splitLines_of_newline_free (newline_not_mem_caretRow d source), List.singleton_append]

/-- A rendering has four newlines and those of the text it shows. -/
theorem count_render (h : '\n' ∉ file.toList) (d : Diagnostic) (source : String) :
    (d.render source file).toList.count '\n' = 4 + d.cause.newlines := by
  have hlines := congrArg List.length (splitLines_render h d source)
  rw [List.length_append, length_splitLines, length_splitLines, count_headline] at hlines
  simp only [List.length_cons, List.length_nil] at hlines
  omega

end Diagnostic

/-! ### Texts of tokens -/

namespace Token

open Lexeme

variable {source : String} {t : Token}

/-- A token that is no string literal has the text of its lexeme. -/
theorem toList_text_of_ofLexeme? {l : Lexeme} {span : Span} (h : ofLexeme? l span = some t)
    (hstring : t.kind ≠ .string) : t.text.toList = l.text := by
  cases l with
  | word text | number text =>
    obtain rfl := Option.some.inj h
    exact String.toList_ofList
  | symbol kind =>
    obtain rfl := Option.some.inj h
    rfl
  | string body =>
    obtain rfl := Option.some.inj h
    exact absurd rfl hstring
  | blank text | comment text => cases h

/-- What goes over the end of a line becomes no token. -/
theorem newline_not_mem_of_ofLexeme? {l : Lexeme} (hl : l.IsProper) {span : Span}
    (h : ofLexeme? l span = some t) : '\n' ∉ l.text := by
  intro hmem
  have hnone := (isFound_ofLexeme? hl span).gap <| by
    rcases of_newline_mem (isLexeme_text hl) hmem with hblanks | hcomment
    · exact .inl hblanks
    · exact .inr (.inr hcomment)
  rw [h] at hnone
  cases hnone

/-- Only the text of a string literal has newlines. -/
theorem newline_not_mem_text_of_scan {ts : List Token} (h : scan source = .ok ts) :
    ∀ t ∈ ts, t.kind ≠ .string → '\n' ∉ t.text.toList := by
  obtain ⟨-, ls, htiles, rfl⟩ := scan_eq_ok_iff.1 h
  have hproper := htiles.isProper
  clear htiles h
  generalize Position.start = p
  induction ls generalizing p with
  | nil =>
    refine List.forall_mem_singleton.2 fun _ => ?_
    show '\n' ∉ "EOF".toList
    decide
  | cons l ls ih =>
    obtain ⟨hl, hls⟩ := List.forall_mem_cons.1 hproper
    refine List.forall_mem_append.2 ⟨fun t ht hstring => ?_, ih hls _⟩
    have htoken := Option.mem_toList.1 ht
    rw [toList_text_of_ofLexeme? htoken hstring]
    exact newline_not_mem_of_ofLexeme? hl htoken

end Token

/-! ### Refusals of a source -/

namespace Program

open Diagnostic

variable {settings : Settings} {source file : String} {d : Diagnostic}

/-- The causes for which a scan is refused are lexical. -/
theorem isSyntactic_of_scan_error (h : Token.scan source = .error d) :
    d.cause.isSyntactic = false := by
  unfold Token.scan Token.checkSize at h
  split at h
  · obtain ⟨-, rest, -, -, -, hfault, -⟩ := Token.exists_tiles_of_scanFrom_error h
    generalize d.cause = cause at hfault
    cases hfault <;> rfl
  · cases h
    rfl

/-- An unexpected string literal stands where the source is refused. -/
theorem exists_literal_of_ofSource_error (h : ofSource settings source = .error d) {text : String}
    {expected : List Kind} (hcause : d.cause = .unexpectedToken text .string expected) :
    ∃ ts t, Token.scan source = .ok ts ∧ t ∈ ts ∧ t.kind = .string ∧ t.text = text
      ∧ t.span.start = d.position := by
  rcases ofSource_eq_error_iff.1 h with hscan | ⟨ts, s, hscan, hparse⟩
  · have hlexical := isSyntactic_of_scan_error hscan
    rw [hcause] at hlexical
    cases hlexical
  · have hmem := mem_of_parseTokens_error hscan hparse
    obtain ⟨-, -, -, r, -, -, -, -, rfl⟩ := exists_refusal_of_error hparse
    cases r with
    | kind expected' =>
      obtain ⟨htext, hkind, -⟩ := Cause.unexpectedToken.inj hcause
      exact ⟨ts, s.current, hscan, hmem, hkind, htext, rfl⟩
    | noExpression | unclosed | tooDeep _ => cases hcause

/-- The advice on a source shows no newlines of any other token. -/
theorem newlines_of_ofSource_error (h : ofSource settings source = .error d)
    (hcause : ∀ text expected, d.cause ≠ .unexpectedToken text .string expected) :
    d.cause.newlines = 0 := by
  rcases ofSource_eq_error_iff.1 h with hscan | ⟨ts, s, hscan, hparse⟩
  · have hlexical := isSyntactic_of_scan_error hscan
    cases hshown : d.cause <;> rw [hshown] at hlexical <;> first | rfl | cases hlexical
  · have hmem := mem_of_parseTokens_error hscan hparse
    obtain ⟨-, -, agenda, r, -, -, -, hanswer, rfl⟩ := exists_refusal_of_error hparse
    have hnot := Parse.not_mem_expected_of_answer hanswer
    have hfree := Token.newline_not_mem_text_of_scan hscan _ hmem
    cases r with
    | kind expected =>
      refine List.count_eq_zero.2 (hfree fun hstring => hcause s.current.text expected ?_)
      rw [← hstring]
      rfl
    | noExpression =>
      -- A string literal begins an expression.
      refine List.count_eq_zero.2 (hfree fun hstring => hnot ?_)
      rw [hstring]
      decide
    | unclosed | tooDeep _ => rfl

/-- **A rendering has five rows, unless it shows a string literal with a newline in its value.** Let
a source be refused and be rendered under a file name of one line. The headline is followed by four
lines, and it is one line itself unless an unexpected token is a string literal whose value has
newlines; of these it has just as many more. -/
theorem rows_of_ofSource_error (hfile : '\n' ∉ file.toList)
    (h : ofSource settings source = .error d) :
    splitLines (d.render source file).toList
        = splitLines d.headline.toList
          ++ [d.placeRow file, d.barRow, d.lineRow source, d.caretRow source]
    ∧ ((d.render source file).toList.count '\n' = 4 ↔
        ∀ text expected, d.cause = .unexpectedToken text .string expected → '\n' ∉ text.toList)
    ∧ ∀ text expected, d.cause = .unexpectedToken text .string expected →
        (d.render source file).toList.count '\n' = 4 + text.toList.count '\n'
        ∧ ∃ ts t, Token.scan source = .ok ts ∧ t ∈ ts ∧ t.kind = .string ∧ t.text = text
          ∧ t.span.start = d.position := by
  have hcount := count_render hfile d source
  refine ⟨splitLines_render hfile d source, ⟨fun hfour text expected hcause => ?_, fun hfree => ?_⟩,
    fun text expected hcause => ⟨?_, exists_literal_of_ofSource_error h hcause⟩⟩
  · rw [hcause] at hcount
    exact List.count_eq_zero.1 (by simpa [Cause.newlines, hfour] using hcount)
  · have hnone : d.cause.newlines = 0 := by
      by_cases hstring : ∃ text expected, d.cause = .unexpectedToken text .string expected
      · obtain ⟨text, expected, hcause⟩ := hstring
        rw [hcause]
        exact List.count_eq_zero.2 (hfree text expected hcause)
      · exact newlines_of_ofSource_error h fun text expected hcause =>
          hstring ⟨text, expected, hcause⟩
    rw [hcount, hnone]
  · rw [hcount, hcause]
    rfl

theorem rows_of_ofSource_error_at_missing_value :
    ofSource ⟨8⟩ "int x = ;" = .error ⟨.expectedExpression ";" .semicolon, ⟨8, 1, 9⟩⟩
      ∧ (Diagnostic.render ⟨.expectedExpression ";" .semicolon, ⟨8, 1, 9⟩⟩ "int x = ;"
        "main.ml").toList.count '\n' = 4 := by
  have h : ofSource ⟨8⟩ "int x = ;" = .error ⟨.expectedExpression ";" .semicolon, ⟨8, 1, 9⟩⟩ := by
    decide +kernel
  have hfile : '\n' ∉ "main.ml".toList := by decide
  have hrows := (rows_of_ofSource_error hfile h).2.1
  exact ⟨h, hrows.2 fun text expected hcause => by cases hcause⟩

/-- A string literal that is not expected, with an escaped newline in it: six rows. -/
theorem six_rows_of_literal :
    ofSource ⟨8⟩ "int \"a\\nb\";"
        = .error ⟨.unexpectedToken "a\nb" .string [.identifier], ⟨4, 1, 5⟩⟩
      ∧ '\n' ∉ "main.ml".toList
      ∧ (Diagnostic.render ⟨.unexpectedToken "a\nb" .string [.identifier], ⟨4, 1, 5⟩⟩
        "int \"a\\nb\";" "main.ml").toList.count '\n' = 5 := by
  decide +kernel

end Program

end ImpFront
