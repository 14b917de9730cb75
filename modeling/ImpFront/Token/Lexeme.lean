import ImpFront.Diagnostic.Basic
import ImpFront.Text.Blank
import ImpFront.Text.Literal
/-!
# ImpFront.Token.Lexeme

The **lexemes**: the pieces into which a source falls. Most become a token;
blanks and comments become none.

A lexeme is read by an ordered table of patterns, each of which looks at the
remaining text and reads a lexeme, refuses the text, or passes. The first pattern
that does not pass decides, so among spellings the longer ones come first: `<=`
before `<`, and the comment marks before `/`. A text that no pattern reads is
refused for its first character.
-/

namespace ImpFront

/-- A piece of source text. -/
inductive Lexeme where
  /-- An identifier or a reserved word. -/
  | word (text : List Char)
  | number (text : List Char)
  | blank (text : List Char)
  /-- A string literal, by its characters between the quotes. -/
  | string (body : List Char)
  | comment (text : List Char)
  /-- An operator or punctuation mark, by the kind it spells. -/
  | symbol (kind : Kind)
  deriving DecidableEq, Repr

namespace Lexeme

/-- The text that a lexeme covers. -/
def text : Lexeme → List Char
  | word text | number text | blank text | comment text => text
  | string body => '"' :: body ++ ['"']
  | symbol kind => kind.describe.toList

/-- Kind and text of the token that a lexeme becomes. -/
def token? : Lexeme → Option (Kind × String)
  | word text => some (.ofWord (.ofList text), .ofList text)
  | number text => some (.number, .ofList text)
  | string body => some (.string, .ofList (Text.decodeBody body))
  | symbol kind => some (kind, kind.describe)
  | blank _ | comment _ => none

/-! ### Character classes -/

/-- The characters that begin a word: ASCII letters and the underscore. -/
def isWordStart (c : Char) : Bool := c.isAlpha || c = '_'

/-- The characters that continue a word. -/
def isWordChar (c : Char) : Bool := isWordStart c || c.isDigit

/-! ### Extents

Each function below gives the characters that a lexeme takes from the text. -/

/-- Digits, then a fraction if a point and a digit follow. -/
def numberText (cs : List Char) : List Char :=
  let whole := cs.takeWhile Char.isDigit
  match cs.dropWhile Char.isDigit with
  | '.' :: rest =>
    let fraction := rest.takeWhile Char.isDigit
    if fraction = [] then whole else whole ++ '.' :: fraction
  | _ => whole

/-- The body of a string literal, from behind its opening quote: it ends at the first quote that
no backslash precedes, and holds no newline. -/
def stringBody? : List Char → Option (List Char)
  | [] => none
  | '"' :: _ => some []
  | '\n' :: _ => none
  | '\\' :: [] => none
  | '\\' :: c :: rest =>
    if c = '\n' then none else (stringBody? rest).map fun body => '\\' :: c :: body
  | c :: rest => (stringBody? rest).map (c :: ·)

/-- The text up to and including the first end of a block comment. -/
def untilCommentEnd? : List Char → Option (List Char)
  | [] => none
  | '*' :: '/' :: _ => some ['*', '/']
  | c :: rest => (untilCommentEnd? rest).map (c :: ·)

/-! ### Patterns -/

/-- A way to read the front of a text: it passes, refuses the text, or reads a lexeme. -/
abbrev Pattern := List Char → Option (Except Cause Lexeme)

/-- A letter or underscore, then letters, digits and underscores. -/
def wordPattern : Pattern
  | c :: rest => if isWordStart c then some (.ok (word (c :: rest.takeWhile isWordChar))) else none
  | [] => none

/-- A number begins with a digit. -/
def numberPattern : Pattern
  | c :: rest => if c.isDigit then some (.ok (number (numberText (c :: rest)))) else none
  | [] => none

/-- All blanks in a row are one lexeme. -/
def blankPattern : Pattern
  | c :: rest =>
    if Text.isBlank c then some (.ok (blank (c :: rest.takeWhile Text.isBlank))) else none
  | [] => none

/-- A quote begins a string literal, and nothing else. -/
def stringPattern : Pattern
  | '"' :: rest =>
    match stringBody? rest with
    | some body => some (.ok (string body))
    | none => some (.error .unterminatedString)
  | _ => none

/-- Two slashes begin a comment that lasts to the end of the line. -/
def lineCommentPattern : Pattern
  | '/' :: '/' :: rest => some (.ok (comment ('/' :: '/' :: rest.takeWhile (· ≠ '\n'))))
  | _ => none

/-- A slash and a star begin a comment that lasts to the first star and slash. -/
def blockCommentPattern : Pattern
  | '/' :: '*' :: rest =>
    match untilCommentEnd? rest with
    | some text => some (.ok (comment ('/' :: '*' :: text)))
    | none => some (.error .unterminatedComment)
  | _ => none

/-- The fixed spelling of a kind. -/
def symbolPattern (kind : Kind) : Pattern := fun cs =>
  if kind.describe.toList.isPrefixOf cs then some (.ok (symbol kind)) else none

/-- The kinds spelled by symbols, each before those whose spelling begins its own. -/
def symbolOrder : List Kind :=
  [.openCurly, .closeCurly, .openParen, .closeParen, .equals, .notEquals, .not, .assign,
   .lessEquals, .less, .greaterEquals, .greater, .or, .and, .semicolon, .comma, .plusPlus,
   .minusMinus, .plusEquals, .minusEquals, .starEquals, .slashEquals, .percentEquals, .plus,
   .dash, .slash, .star, .percent]

/-- All patterns, in the order in which they are asked. -/
def patterns : List Pattern :=
  [wordPattern, numberPattern, blankPattern, stringPattern, lineCommentPattern,
   blockCommentPattern] ++ symbolOrder.map symbolPattern

/-- The lexeme at the front of a text: what the first pattern that does not pass says. -/
def first (cs : List Char) : Except Cause Lexeme :=
  (patterns.findSome? (· cs)).getD
    (.error (.unrecognisedToken (.ofList cs.head?.toList)))

/-! ### Laws -/

/-- What a lexeme must be for scanning to move on: not empty, and the front of the text. -/
def Begins (l : Lexeme) (cs : List Char) : Prop := l.text ≠ [] ∧ l.text <+: cs

theorem numberText_prefix (cs : List Char) : numberText cs <+: cs := by
  have h := List.takeWhile_append_dropWhile (p := Char.isDigit) (l := cs)
  unfold numberText
  dsimp only
  split
  · next rest hr =>
    split
    · exact List.takeWhile_prefix _
    · rw [hr] at h
      conv => rhs; rw [← h]
      exact List.prefix_append_right_inj _ |>.2
        (List.cons_prefix_cons.2 ⟨rfl, List.takeWhile_prefix _⟩)
  · exact List.takeWhile_prefix _

theorem numberText_ne_nil {c : Char} (h : c.isDigit = true) (rest : List Char) :
    numberText (c :: rest) ≠ [] := by
  unfold numberText
  dsimp only
  split
  · split <;> simp [h]
  · simp [h]

theorem stringBody?_prefix {cs body : List Char} (h : stringBody? cs = some body) :
    body ++ ['"'] <+: cs := by
  fun_induction stringBody? cs generalizing body with
  | case1 => simp at h
  | case2 rest => obtain rfl := Option.some.inj h; simp
  | case3 => simp at h
  | case4 => simp at h
  | case5 => simp at h
  | case6 c rest _ ih =>
    obtain ⟨b, hb, rfl⟩ := Option.map_eq_some_iff.1 h
    simpa using ih hb
  | case7 c rest _ _ _ _ ih =>
    obtain ⟨b, hb, rfl⟩ := Option.map_eq_some_iff.1 h
    simpa using ih hb

theorem untilCommentEnd?_prefix {cs text : List Char} (h : untilCommentEnd? cs = some text) :
    text <+: cs := by
  fun_induction untilCommentEnd? cs generalizing text with
  | case1 => simp at h
  | case2 rest => obtain rfl := Option.some.inj h; simp
  | case3 c rest _ ih =>
    obtain ⟨t, ht, rfl⟩ := Option.map_eq_some_iff.1 h
    simpa using ih ht

/-- Every symbol has a spelling. -/
theorem describe_ne_nil (kind : Kind) : kind.describe.toList ≠ [] := by
  cases kind <;> decide

/-- What a pattern reads is at the front of the text. -/
theorem begins_of_mem_patterns {p : Pattern} (hp : p ∈ patterns) {cs : List Char} {l : Lexeme}
    (h : p cs = some (.ok l)) : l.Begins cs := by
  simp only [patterns, List.mem_append, List.mem_cons, List.not_mem_nil, or_false,
    List.mem_map] at hp
  rcases hp with (rfl | rfl | rfl | rfl | rfl | rfl) | ⟨kind, _, rfl⟩
  · unfold wordPattern at h
    split at h
    · split at h <;> simp at h
      subst h
      exact ⟨by simp [text], by simp [text, List.takeWhile_prefix]⟩
    · simp at h
  · unfold numberPattern at h
    split at h
    · split at h <;> simp at h
      subst h
      exact ⟨numberText_ne_nil ‹_› _, numberText_prefix _⟩
    · simp at h
  · unfold blankPattern at h
    split at h
    · split at h <;> simp at h
      subst h
      exact ⟨by simp [text], by simp [text, List.takeWhile_prefix]⟩
    · simp at h
  · unfold stringPattern at h
    split at h
    · split at h <;> simp at h
      subst h
      exact ⟨by simp [text], by simpa [text] using stringBody?_prefix ‹_›⟩
    · simp at h
  · unfold lineCommentPattern at h
    split at h <;> simp at h
    subst h
    exact ⟨by simp [text], by simp [text, List.takeWhile_prefix]⟩
  · unfold blockCommentPattern at h
    split at h
    · split at h <;> simp at h
      subst h
      exact ⟨by simp [text], by simpa [text] using untilCommentEnd?_prefix ‹_›⟩
    · simp at h
  · unfold symbolPattern at h
    split at h <;> simp at h
    subst h
    exact ⟨describe_ne_nil kind, List.isPrefixOf_iff_prefix.1 ‹_›⟩

/-- The lexeme read is at the front of the text. -/
theorem begins_of_first {cs : List Char} {l : Lexeme} (h : first cs = .ok l) : l.Begins cs := by
  unfold first at h
  cases hf : patterns.findSome? (· cs) with
  | none => rw [hf] at h; simp at h
  | some r =>
    rw [hf, Option.getD_some] at h
    obtain ⟨p, hp, hpc⟩ := List.exists_of_findSome?_eq_some hf
    exact begins_of_mem_patterns hp (h ▸ hpc)

/-- Reading a lexeme shortens the text. -/
theorem length_drop_of_first {cs : List Char} {l : Lexeme} (h : first cs = .ok l) :
    (cs.drop l.text.length).length < cs.length := by
  obtain ⟨hne, hpre⟩ := begins_of_first h
  have hpos := List.length_pos_iff.2 hne
  have hle := hpre.length_le
  rw [List.length_drop]
  omega

end Lexeme

end ImpFront
