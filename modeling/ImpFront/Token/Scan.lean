import ImpFront.Token.Lexeme
/-!
# ImpFront.Token.Scan

**Cutting a source into tokens.** Lexemes are read one after the other until the
text is used up; the token at the end marks the end of the source. The first
lexeme that cannot be read ends the scan with its cause and place.

A source is measured before it is read: one whose offsets would not fit 32 bits
is refused whole.
-/

namespace ImpFront

namespace Token

/-- The token of a lexeme over the given span; blanks and comments have none. -/
def ofLexeme? (l : Lexeme) (span : Span) : Option Token :=
  l.token?.map fun (kind, text) => ⟨kind, text, span⟩

/-- Scans the text that stands at `p`. The tokens found so far come last one first. -/
def scanFrom (found : List Token) (p : Position) (cs : List Char) :
    Except Diagnostic (List Token) :=
  match cs with
  | [] => .ok (endAt p :: found).reverse
  | c :: rest =>
    match _h : Lexeme.first (c :: rest) with
    | .error cause => .error ⟨cause, p⟩
    | .ok l =>
      let next := p.after l.text
      scanFrom ((ofLexeme? l ⟨p, next⟩).toList ++ found) next ((c :: rest).drop l.text.length)
termination_by cs.length
decreasing_by exact Lexeme.length_drop_of_first _h

/-- Refuses a source whose offsets do not fit 32 bits. -/
def checkSize (bytes : Nat) : Except Diagnostic Unit :=
  if bytes ≤ Cause.maxSourceBytes then .ok () else .error ⟨.sourceTooLarge bytes, .start⟩

/-- The tokens of a source, the end of the source included. -/
def scan (source : String) : Except Diagnostic (List Token) := do
  checkSize source.utf8ByteSize
  scanFrom [] .start source.toList

/-! ### Laws -/

@[simp] theorem scanFrom_nil (found : List Token) (p : Position) :
    scanFrom found p [] = .ok (endAt p :: found).reverse := by
  rw [scanFrom]

/-- What was found before comes first and changes nothing else. -/
theorem scanFrom_eq (found : List Token) (p : Position) (cs : List Char) :
    scanFrom found p cs = (scanFrom [] p cs).map (found.reverse ++ ·) := by
  induction hn : cs.length using Nat.strongRecOn generalizing found p cs with
  | ind n ih =>
    subst hn
    cases cs with
    | nil => simp [Except.map]
    | cons c rest =>
      rw [scanFrom, scanFrom]
      split
      · rfl
      · next l h =>
        have hlt := Lexeme.length_drop_of_first h
        dsimp only
        rw [ih _ hlt _ _ _ rfl, ih _ hlt ((ofLexeme? l _).toList ++ []) _ _ rfl]
        cases scanFrom [] (p.after l.text) ((c :: rest).drop l.text.length) <;>
          simp [Except.map]

/-- One step of a scan: the lexeme's token, then the tokens of what follows. -/
theorem scanFrom_of_first {p : Position} {cs : List Char} {l : Lexeme}
    (hne : cs ≠ []) (h : Lexeme.first cs = .ok l) :
    scanFrom [] p cs
      = (scanFrom [] (p.after l.text) (cs.drop l.text.length)).map
          ((ofLexeme? l ⟨p, p.after l.text⟩).toList ++ ·) := by
  obtain ⟨c, rest, rfl⟩ := List.exists_cons_of_ne_nil hne
  rw [scanFrom]
  split
  · next h' => rw [h] at h'; simp at h'
  · next l' h' =>
    rw [h] at h'
    obtain rfl := Except.ok.inj h'
    rw [scanFrom_eq]
    congr 1
    funext ts
    cases ofLexeme? l ⟨p, p.after l.text⟩ <;> rfl

/-- A scan stops where no lexeme can be read. -/
theorem scanFrom_of_error {p : Position} {cs : List Char} {cause : Cause}
    (hne : cs ≠ []) (h : Lexeme.first cs = .error cause) :
    scanFrom [] p cs = .error ⟨cause, p⟩ := by
  obtain ⟨c, rest, rfl⟩ := List.exists_cons_of_ne_nil hne
  rw [scanFrom]
  split
  · next h' => rw [h] at h'; rw [Except.error.inj h']
  · next h' => rw [h] at h'; simp at h'

end Token

end ImpFront
