import ImpFront.Token.Scan
/-!
# ImpFront.Token.Passage

The **places that a scan passes**. Lines and columns are counted character by character, so a scan
computes more places than its tokens show: one behind each character of each lexeme that it reads,
blanks and comments included. `Token.scanPassing` is a scan that writes these places down.
-/

namespace ImpFront

namespace Position

/-- The places behind each character of a text that stands at `p`. -/
def passage (p : Position) : List Char → List Position
  | [] => []
  | c :: text => p.step c :: (p.step c).passage text

/-- Line and column fit 32 bits. -/
def Fits (p : Position) : Prop := p.line < UInt32.size ∧ p.column < UInt32.size

/-- A text fills the limit with lines, or with the columns of one line. -/
def Full (text : List Char) : Prop :=
  byteLength text = Cause.maxSourceBytes
    ∧ ((∀ c ∈ text, c = '\n') ∨ ∀ c ∈ text, c ≠ '\n' ∧ c.utf8Size = 1)

/-- The last place passed is the place after the text. -/
theorem getLastD_passage (p : Position) (text : List Char) :
    (p.passage text).getLastD p = p.after text := by
  induction text generalizing p with
  | nil => rfl
  | cons c text ih => rw [passage, List.getLastD_cons, ih, after_cons]

end Position

namespace Token

/-- Scans the text that stands at `p`; with the places passed, in order. -/
def scanPassing (p : Position) (cs : List Char) :
    List Position × Except Diagnostic (List Token) :=
  match cs with
  | [] => ([], .ok [endAt p])
  | c :: rest =>
    match _h : Lexeme.first (c :: rest) with
    | .error cause => ([], .error ⟨cause, p⟩)
    | .ok l =>
      let here := p.passage l.text
      let next := here.getLastD p
      let (later, result) := scanPassing next ((c :: rest).drop l.text.length)
      (here ++ later, result.map ((ofLexeme? l ⟨p, next⟩).toList ++ ·))
termination_by cs.length
decreasing_by exact Lexeme.length_drop_of_first _h

/-- The places that scanning a source passes. -/
def passed (source : String) : List Position := (scanPassing .start source.toList).1

/-! ### Laws -/

@[simp] theorem scanPassing_nil (p : Position) : scanPassing p [] = ([], .ok [endAt p]) := by
  rw [scanPassing]

theorem scanPassing_of_error {p : Position} {cs : List Char} {cause : Cause}
    (hne : cs ≠ []) (h : Lexeme.first cs = .error cause) :
    scanPassing p cs = ([], .error ⟨cause, p⟩) := by
  obtain ⟨c, rest, rfl⟩ := List.exists_cons_of_ne_nil hne
  rw [scanPassing]
  split
  · next h' => rw [h] at h'; rw [Except.error.inj h']
  · next h' => rw [h] at h'; simp at h'

theorem scanPassing_of_first {p : Position} {cs : List Char} {l : Lexeme}
    (hne : cs ≠ []) (h : Lexeme.first cs = .ok l) :
    scanPassing p cs
      = (p.passage l.text ++ (scanPassing (p.after l.text) (cs.drop l.text.length)).1,
        (scanPassing (p.after l.text) (cs.drop l.text.length)).2.map
          ((ofLexeme? l ⟨p, p.after l.text⟩).toList ++ ·)) := by
  obtain ⟨c, rest, rfl⟩ := List.exists_cons_of_ne_nil hne
  rw [scanPassing]
  split
  · next h' => rw [h] at h'; simp at h'
  · next l' h' =>
    rw [h] at h'
    obtain rfl := Except.ok.inj h'
    rw [← Position.getLastD_passage]

/-- Writing down the places changes nothing. -/
theorem scanPassing_snd (p : Position) (cs : List Char) :
    (scanPassing p cs).2 = scanFrom [] p cs := by
  induction hn : cs.length using Nat.strongRecOn generalizing p cs with
  | ind n ih =>
    subst hn
    cases cs with
    | nil => simp
    | cons c rest =>
      have hne : c :: rest ≠ [] := List.cons_ne_nil c rest
      cases hfirst : Lexeme.first (c :: rest) with
      | error cause => rw [scanPassing_of_error hne hfirst, scanFrom_of_error hne hfirst]
      | ok l =>
        rw [scanPassing_of_first hne hfirst, scanFrom_of_first hne hfirst,
          ← ih _ (Lexeme.length_drop_of_first hfirst) _ _ rfl]

end Token

end ImpFront
