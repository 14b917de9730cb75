import Mathlib.Data.List.TakeWhile
import ImpFront.Proofs.Token.Acceptance
import ImpFront.Token.Scan
/-!
# ImpFront.Proofs.Token.LongestMatch

**The first pattern takes the longest lexeme.** The patterns are asked in a fixed order, and
the first that does not pass decides. Still, what is read is the longest of all lexemes that
the text begins with: a lexeme at the front is read as itself or as a longer one
(`Lexeme.exists_first_of_isLexeme`).

Only a text that opens a string or a comment without closing it is refused although a shorter
lexeme may be there.
-/

namespace ImpFront

namespace Lexeme

/-- The longest of the lexemes that a text begins with. -/
structure IsLongest (t cs : List Char) : Prop where
  isLexeme : IsLexeme t
  isPrefix : t <+: cs
  longest : ∀ u, IsLexeme u → u <+: cs → u.length ≤ t.length

/-- The text begins with a quote that begins no string literal. -/
def OpensString (cs : List Char) : Prop :=
  ∃ rest, cs = '"' :: rest ∧ ∀ t, IsString t → ¬ t <+: cs

/-- The text begins with the opening mark of a block comment, and no closing mark follows. -/
def OpensComment (cs : List Char) : Prop :=
  ∃ rest, cs = '/' :: '*' :: rest ∧ ¬ ['*', '/'] <:+: rest

/-- The text begins with something that is never closed. -/
def IsOpen (cs : List Char) : Prop := OpensString cs ∨ OpensComment cs

variable {t cs rest : List Char} {l l' : Lexeme}

/-! ### Extents -/

theorem prefix_takeWhile_append {p : Char → Bool} (ht : ∀ c ∈ t, p c = true) (rest : List Char) :
    t <+: (t ++ rest).takeWhile p := by
  rw [List.takeWhile_append_of_pos ht]
  exact List.prefix_append t _

theorem takeWhile_prefix_numberText (cs : List Char) :
    cs.takeWhile Char.isDigit <+: numberText cs := by
  unfold numberText
  dsimp only
  split
  · split
    · exact List.prefix_rfl
    · exact List.prefix_append _ _
  · exact List.prefix_rfl

theorem prefix_numberText_append (ht : IsNumber t) (rest : List Char) :
    t <+: numberText (t ++ rest) := by
  rcases ht with ⟨-, hdigits⟩ | ⟨whole, fraction, ⟨-, hwhole⟩, ⟨hne, hfraction⟩, rfl⟩
  · exact (prefix_takeWhile_append hdigits rest).trans (takeWhile_prefix_numberText _)
  · have hlonger := prefix_takeWhile_append hfraction rest
    have hne' : (fraction ++ rest).takeWhile Char.isDigit ≠ [] := fun hnil =>
      hne (List.prefix_nil.1 (hnil ▸ hlonger))
    rw [List.append_assoc, List.cons_append, numberText_point hwhole hne',
      List.prefix_append_right_inj, List.cons_prefix_cons]
    exact ⟨rfl, hlonger⟩

theorem untilCommentEnd?_cons {c : Char} (h : ¬ ['*', '/'] <+: c :: rest) :
    untilCommentEnd? (c :: rest) = (untilCommentEnd? rest).map (c :: ·) := by
  rw [untilCommentEnd?.eq_def]
  split
  · next heq => cases heq
  · next heq =>
    rw [heq] at h
    exact absurd ⟨_, rfl⟩ h
  · next heq =>
    obtain ⟨rfl, rfl⟩ := List.cons.inj heq
    rfl

/-- A comment is read up to its first closing mark. -/
theorem untilCommentEnd?_append {body : List Char} (h : ¬ ['*', '/'] <:+: body ++ ['*'])
    (rest : List Char) :
    untilCommentEnd? (body ++ '*' :: '/' :: rest) = some (body ++ ['*', '/']) := by
  induction body with
  | nil => rfl
  | cons c body ih =>
    rw [List.cons_append, List.infix_cons_iff] at h
    obtain ⟨hbegins, hlater⟩ := not_or.1 h
    have hbegins' : ¬ ['*', '/'] <+: c :: (body ++ '*' :: '/' :: rest) := by
      cases body with
      | nil => simp
      | cons d body => simpa using hbegins
    rw [List.cons_append, untilCommentEnd?_cons hbegins', ih hlater]
    rfl

theorem isSome_untilCommentEnd? (h : ['*', '/'] <:+: cs) :
    (untilCommentEnd? cs).isSome = true := by
  induction cs with
  | nil => exact absurd h (by decide)
  | cons c cs ih =>
    by_cases hbegins : ['*', '/'] <+: c :: cs
    · obtain ⟨tail, htail⟩ := hbegins
      rw [← htail]
      rfl
    · rw [untilCommentEnd?_cons hbegins, Option.isSome_map]
      exact ih ((List.infix_cons_iff.1 h).resolve_left hbegins)

/-! ### Marks -/

theorem first_lineComment (rest : List Char) :
    first ('/' :: '/' :: rest) = .ok (comment ('/' :: '/' :: rest.takeWhile (· ≠ '\n'))) := by
  refine first_of_pattern [wordPattern, numberPattern, blankPattern, stringPattern] rfl ?_ rfl
  intro q hq
  simp only [List.mem_cons, List.not_mem_nil, or_false] at hq
  rcases hq with rfl | rfl | rfl | rfl <;> rfl

theorem first_commentMark {rest : List Char} {r : Except Cause Lexeme}
    (h : blockCommentPattern ('/' :: '*' :: rest) = some r) : first ('/' :: '*' :: rest) = r := by
  refine first_of_pattern
    [wordPattern, numberPattern, blankPattern, stringPattern, lineCommentPattern] rfl ?_ h
  intro q hq
  simp only [List.mem_cons, List.not_mem_nil, or_false] at hq
  rcases hq with rfl | rfl | rfl | rfl | rfl <;> rfl

theorem first_blockComment {text : List Char} (h : untilCommentEnd? rest = some text) :
    first ('/' :: '*' :: rest) = .ok (comment ('/' :: '*' :: text)) :=
  first_commentMark (by rw [blockCommentPattern, h])

theorem opensString_iff {rest : List Char} :
    OpensString ('"' :: rest) ↔ stringBody? rest = none := by
  constructor
  · rintro ⟨_, ⟨⟩, hnone⟩
    refine Option.eq_none_iff_forall_ne_some.2 fun body hbody => ?_
    refine hnone ('"' :: body ++ ['"']) ⟨body, isBody_of_stringBody? hbody, rfl⟩ ?_
    exact List.cons_prefix_cons.2 ⟨rfl, stringBody?_prefix hbody⟩
  · refine fun hnone => ⟨rest, rfl, ?_⟩
    rintro _ ⟨body, hbody, rfl⟩ hbegins
    obtain ⟨tail, htail⟩ := (List.cons_prefix_cons.1 hbegins).2
    have hread := stringBody?_append hbody tail
    have hrest : body ++ '"' :: tail = rest := (List.append_cons body '"' tail).trans htail
    rw [hrest, hnone] at hread
    cases hread

theorem opensComment_iff {rest : List Char} :
    OpensComment ('/' :: '*' :: rest) ↔ untilCommentEnd? rest = none := by
  constructor
  · rintro ⟨_, ⟨⟩, hnone⟩
    refine Option.eq_none_iff_forall_ne_some.2 fun text htext => ?_
    obtain ⟨body, rfl, -⟩ := exists_of_untilCommentEnd? htext
    have hbegins := untilCommentEnd?_prefix htext
    exact hnone ((List.suffix_append body _).isInfix.trans hbegins.isInfix)
  · refine fun hnone => ⟨rest, rfl, fun hend => ?_⟩
    have hsome := isSome_untilCommentEnd? hend
    rw [hnone] at hsome
    cases hsome

theorem first_of_opensString (h : OpensString cs) : first cs = .error .unterminatedString := by
  obtain ⟨rest, rfl, -⟩ := id h
  exact first_quote (by rw [stringPattern, opensString_iff.1 h])

theorem first_of_opensComment (h : OpensComment cs) : first cs = .error .unterminatedComment := by
  obtain ⟨rest, rfl, -⟩ := id h
  exact first_commentMark (by rw [blockCommentPattern, opensComment_iff.1 h])

theorem not_isOpen_of_first (h : first cs = .ok l) : ¬ IsOpen cs := by
  rintro (hopen | hopen)
  · rw [first_of_opensString hopen] at h
    cases h
  · rw [first_of_opensComment hopen] at h
    cases h

/-- A pattern refuses only what is never closed. -/
theorem isOpen_of_mem_patterns {p : Pattern} (hp : p ∈ patterns) {cause : Cause}
    (h : p cs = some (.error cause)) : IsOpen cs := by
  simp only [patterns, List.mem_append, List.mem_cons, List.not_mem_nil, or_false,
    List.mem_map] at hp
  rcases hp with (rfl | rfl | rfl | rfl | rfl | rfl) | ⟨kind, -, rfl⟩
  · unfold wordPattern at h
    split at h
    · split at h <;> cases h
    · cases h
  · unfold numberPattern at h
    split at h
    · split at h <;> cases h
    · cases h
  · unfold blankPattern at h
    split at h
    · split at h <;> cases h
    · cases h
  · unfold stringPattern at h
    split at h
    · split at h
      · cases h
      · next hnone => exact .inl (opensString_iff.2 hnone)
    · cases h
  · unfold lineCommentPattern at h
    split at h <;> cases h
  · unfold blockCommentPattern at h
    split at h
    · split at h
      · cases h
      · next hnone => exact .inr (opensComment_iff.2 hnone)
    · cases h
  · unfold symbolPattern at h
    split at h <;> cases h

/-! ### Symbols -/

/-- No symbol stands in the table behind one that its spelling continues. -/
theorem pairwise_symbolOrder : symbolOrder.Pairwise fun kind later =>
    kind.describe.toList.isPrefixOf later.describe.toList = false := by
  decide +kernel

/-- The first symbol of the table that a text begins with is the longest one. -/
theorem prefix_of_find? {kind found : Kind} (hkind : kind ∈ symbolOrder)
    (hbegins : kind.describe.toList <+: cs)
    (hfind : symbolOrder.find? (·.describe.toList.isPrefixOf cs) = some found) :
    kind.describe.toList <+: found.describe.toList := by
  obtain ⟨hfound, before, behind, horder, hbefore⟩ := List.find?_eq_some_iff_append.1 hfind
  have hfound' := List.isPrefixOf_iff_prefix.1 hfound
  rcases List.prefix_or_prefix_of_prefix hbegins hfound' with hle | hlonger
  · exact hle
  · -- A longer symbol stands before `found` and would have been found itself.
    have hpairs := pairwise_symbolOrder
    rw [horder] at hkind hpairs
    rcases List.mem_append.1 hkind with hmem | hmem
    · have hpass := hbefore kind hmem
      rw [List.isPrefixOf_iff_prefix.2 hbegins] at hpass
      cases hpass
    · rcases List.mem_cons.1 hmem with rfl | hmem
      · exact List.prefix_rfl
      · have hshort := (List.pairwise_cons.1 (List.pairwise_append.1 hpairs).2.1).1 kind hmem
        rw [List.isPrefixOf_iff_prefix.2 hlonger] at hshort
        cases hshort

/-! ### Lexemes at the front -/

/-- Where a comment begins, a comment is read. -/
theorem exists_first_of_commentMark {mark : List Char} (hmark : mark ∈ commentMarks)
    (hbegins : mark <+: cs) (hopen : ¬ IsOpen cs) : ∃ l, first cs = .ok l ∧ mark <+: l.text := by
  obtain ⟨tail, rfl⟩ := hbegins
  simp only [commentMarks, List.mem_cons, List.not_mem_nil, or_false] at hmark
  rcases hmark with rfl | rfl
  · exact ⟨_, first_lineComment tail, List.prefix_append _ _⟩
  · have hclosed : ['*', '/'] <:+: tail := by
      by_contra hnone
      exact hopen (.inr ⟨tail, rfl, hnone⟩)
    obtain ⟨text, htext⟩ := Option.isSome_iff_exists.1 (isSome_untilCommentEnd? hclosed)
    exact ⟨_, first_blockComment htext, List.prefix_append _ _⟩

/-- A symbol is read as itself, as a longer symbol, or as a comment. -/
theorem exists_first_of_symbol {kind : Kind} (hkind : kind ∈ symbolOrder)
    (hbegins : kind.describe.toList <+: cs) (hopen : ¬ IsOpen cs) :
    ∃ l, first cs = .ok l ∧ kind.describe.toList <+: l.text := by
  by_cases hcomment : ∃ mark ∈ commentMarks, mark <+: cs
  · obtain ⟨mark, hmark, hmarkcs⟩ := hcomment
    obtain ⟨l, hl, hmarkl⟩ := exists_first_of_commentMark hmark hmarkcs hopen
    rcases List.prefix_or_prefix_of_prefix hbegins hmarkcs with hle | hle
    · exact ⟨l, hl, hle.trans hmarkl⟩
    · exact absurd hle ((beginning_of_symbol kind hkind).2 mark hmark)
  · have hsome : (symbolOrder.find? (·.describe.toList.isPrefixOf cs)).isSome = true :=
      List.find?_isSome.2 ⟨kind, hkind, List.isPrefixOf_iff_prefix.2 hbegins⟩
    obtain ⟨found, hfind⟩ := Option.isSome_iff_exists.1 hsome
    refine ⟨symbol found, first_of_find? ?_ hfind, prefix_of_find? hkind hbegins hfind⟩
    exact fun mark hmark hmarkcs => hcomment ⟨mark, hmark, hmarkcs⟩

/-- **A lexeme at the front of a text is read, or a longer one.** -/
theorem exists_first_of_isLexeme (ht : IsLexeme t) (hopen : ¬ IsOpen (t ++ rest)) :
    ∃ l, first (t ++ rest) = .ok l ∧ t <+: l.text := by
  rcases ht with hword | hnumber | ⟨hne, hall⟩ | hstring | hline | hblock | ⟨kind, hkind, rfl⟩
  · obtain ⟨c, tail, rfl, hc, htail⟩ := hword
    refine ⟨_, first_of_isWordStart hc (tail ++ rest), ?_⟩
    exact List.cons_prefix_cons.2 ⟨rfl, prefix_takeWhile_append htail rest⟩
  · have hlonger := prefix_numberText_append hnumber rest
    obtain ⟨c, tail, rfl, hc⟩ := hnumber.exists_digit
    exact ⟨_, first_of_isDigit hc (tail ++ rest), hlonger⟩
  · obtain ⟨c, tail, rfl⟩ := List.exists_cons_of_ne_nil hne
    obtain ⟨hc, htail⟩ := List.forall_mem_cons.1 hall
    refine ⟨_, first_blank hc (tail ++ rest), ?_⟩
    exact List.cons_prefix_cons.2 ⟨rfl, prefix_takeWhile_append htail rest⟩
  · obtain ⟨body, hbody, rfl⟩ := hstring
    refine ⟨string body, ?_, List.prefix_rfl⟩
    rw [List.append_assoc]
    exact first_string hbody rest
  · obtain ⟨body, hbody, rfl⟩ := hline
    have hbody' : ∀ c ∈ body, decide (c ≠ '\n') = true := fun c hc =>
      decide_eq_true fun hnewline => hbody (hnewline ▸ hc)
    refine ⟨_, first_lineComment (body ++ rest), ?_⟩
    exact (List.prefix_append_right_inj ['/', '/']).2 (prefix_takeWhile_append hbody' rest)
  · obtain ⟨body, rfl, hbody⟩ := hblock
    refine ⟨comment ('/' :: '*' :: body ++ ['*', '/']), ?_, List.prefix_rfl⟩
    rw [List.append_assoc]
    exact first_blockComment (untilCommentEnd?_append hbody rest)
  · exact exists_first_of_symbol hkind (List.prefix_append _ rest) hopen

theorem isLexeme_text (h : l.IsProper) : IsLexeme l.text := by
  cases l with
  | word t => exact .inl h
  | number t => exact .inr (.inl h)
  | blank t => exact .inr (.inr (.inl h))
  | string body => exact .inr (.inr (.inr (.inl ⟨body, h, rfl⟩)))
  | comment t =>
    rcases h with hline | hblock
    · exact .inr (.inr (.inr (.inr (.inl hline))))
    · exact .inr (.inr (.inr (.inr (.inr (.inl hblock)))))
  | symbol kind => exact .inr (.inr (.inr (.inr (.inr (.inr ⟨kind, h, rfl⟩)))))

/-- What is read is the longest lexeme that the text begins with. -/
theorem isLongest_of_first (h : first cs = .ok l) : IsLongest l.text cs := by
  refine ⟨isLexeme_text (isProper_of_first h), (begins_of_first h).2, fun u hu hucs => ?_⟩
  obtain ⟨rest, rfl⟩ := hucs
  obtain ⟨l', hl', hlonger⟩ := exists_first_of_isLexeme hu (not_isOpen_of_first h)
  rw [h] at hl'
  cases hl'
  exact hlonger.length_le

/-- A text without a lexeme at its front is refused for its first character. -/
theorem first_of_no_lexeme (hopen : ¬ IsOpen cs) (h : ∀ t, IsLexeme t → ¬ t <+: cs) :
    first cs = .error (.unrecognisedToken (.ofList cs.head?.toList)) := by
  have hnone : patterns.findSome? (· cs) = none := by
    refine List.findSome?_eq_none_iff.2 fun p hp => ?_
    cases hpcs : p cs with
    | none => rfl
    | some r =>
      cases r with
      | error cause => exact absurd (isOpen_of_mem_patterns hp hpcs) hopen
      | ok l =>
        have hproper := isProper_of_mem_patterns hp hpcs
        exact absurd (begins_of_mem_patterns hp hpcs).2 (h l.text (isLexeme_text hproper))
  rw [first, hnone, Option.getD_none]

/-- A lexeme alone is read as itself. -/
theorem first_text (h : l.IsProper) : first l.text = .ok l := by
  rw [← List.append_nil l.text]
  cases l with
  | word t => exact first_word h (fun c hc => by cases hc)
  | number t => exact first_number h (fun c hc => by cases hc)
  | blank t =>
    obtain ⟨hne, hall⟩ := h
    obtain ⟨c, tail, rfl⟩ := List.exists_cons_of_ne_nil hne
    obtain ⟨hc, htail⟩ := List.forall_mem_cons.1 hall
    rw [List.append_nil]
    exact (first_blank hc tail).trans (by rw [List.takeWhile_eq_self_iff.2 htail])
  | string body =>
    rw [text, List.append_assoc]
    exact first_string h []
  | comment t =>
    rw [List.append_nil]
    rcases h with ⟨body, hbody, rfl⟩ | ⟨body, rfl, hbody⟩
    · refine (first_lineComment body).trans ?_
      rw [List.takeWhile_eq_self_iff.2]
      exact fun c hc => decide_eq_true fun hnewline => hbody (hnewline ▸ hc)
    · exact first_blockComment (untilCommentEnd?_append hbody [])
  | symbol kind => exact first_symbol h (fun c hc => by cases hc)

/-- The text decides the lexeme, and so its class. -/
theorem eq_of_text_eq (h : l.IsProper) (h' : l'.IsProper) (htext : l.text = l'.text) : l = l' := by
  have hread := first_text h
  rw [htext, first_text h'] at hread
  exact (Except.ok.inj hread).symm

end Lexeme

open Lexeme

namespace Token

/-- What a scan finds where it has read a lexeme, by the class of the text. -/
structure IsFound (t : List Char) (span : Span) (token : Option Token) : Prop where
  /-- A word is a reserved word if its whole text is one, and otherwise an identifier. -/
  word : IsWord t → ∃ kind, token = some ⟨kind, .ofList t, span⟩
    ∧ (kind ∈ Kind.reserved ∧ kind.describe = .ofList t
      ∨ kind = .identifier ∧ ∀ k ∈ Kind.reserved, k.describe ≠ .ofList t)
  number : IsNumber t → token = some ⟨.number, .ofList t, span⟩
  string : ∀ body, IsBody body → t = '"' :: body ++ ['"'] →
    token = some ⟨.string, .ofList (Text.decodeBody body), span⟩
  symbol : ∀ kind ∈ symbolOrder, t = kind.describe.toList → token = some ⟨kind, kind.describe, span⟩
  gap : IsBlanks t ∨ IsLineComment t ∨ IsBlockComment t → token = none

variable {cs : List Char} {l : Lexeme}

theorem ofWord_cases (word : String) :
    Kind.ofWord word ∈ Kind.reserved ∧ (Kind.ofWord word).describe = word
      ∨ Kind.ofWord word = .identifier ∧ ∀ k ∈ Kind.reserved, k.describe ≠ word := by
  unfold Kind.ofWord
  cases hfind : Kind.reserved.find? (·.describe = word) with
  | none =>
    refine .inr ⟨rfl, fun k hk => ?_⟩
    simpa using List.find?_eq_none.1 hfind k hk
  | some kind => exact .inl ⟨List.mem_of_find?_eq_some hfind, by simpa using List.find?_some hfind⟩

/-- What a lexeme becomes is decided by the class of its text. -/
theorem isFound_ofLexeme? (h : l.IsProper) (span : Span) :
    IsFound l.text span (ofLexeme? l span) := by
  have hclass {l' : Lexeme} (h' : l'.IsProper) (htext : l.text = l'.text) :
      ofLexeme? l span = ofLexeme? l' span := by
    rw [eq_of_text_eq h h' htext]
  refine ⟨fun hword => ?_, fun hnumber => ?_, fun body hbody htext => ?_,
    fun kind hkind htext => ?_, fun hgap => ?_⟩
  · exact ⟨_, @hclass (.word l.text) hword rfl, ofWord_cases _⟩
  · exact @hclass (.number l.text) hnumber rfl
  · exact @hclass (.string body) hbody htext
  · exact @hclass (.symbol kind) hkind htext
  · rcases hgap with hblanks | hcomment
    · exact @hclass (.blank l.text) hblanks rfl
    · exact @hclass (.comment l.text) hcomment rfl

/-- A scan that reads a lexeme goes on behind it. -/
theorem scanFrom_step (found : List Token) {p : Position} (hne : cs ≠ [])
    (h : Lexeme.first cs = .ok l) :
    scanFrom found p cs = scanFrom ((ofLexeme? l ⟨p, p.after l.text⟩).toList ++ found)
      (p.after l.text) (cs.drop l.text.length) := by
  obtain ⟨c, rest, rfl⟩ := List.exists_cons_of_ne_nil hne
  rw [scanFrom]
  split
  · next h' =>
    rw [h] at h'
    cases h'
  · next l' h' =>
    rw [h] at h'
    cases h'
    rfl

/-- **Maximal munch.** Wherever a scan stands, unless a string or a block comment begins there and
is never closed, the first pattern that does not pass reads the longest lexeme of any class that the
text begins with, what is found is the token of the class of that lexeme, and the scan goes on
behind it; if the text begins with no lexeme at all, the scan is refused for the first character. -/
theorem scanFrom_longest (found : List Token) (p : Position) (hne : cs ≠ []) (hopen : ¬ IsOpen cs) :
    (∃ l, Lexeme.first cs = .ok l ∧ IsLongest l.text cs
      ∧ IsFound l.text ⟨p, p.after l.text⟩ (ofLexeme? l ⟨p, p.after l.text⟩)
      ∧ scanFrom found p cs = scanFrom ((ofLexeme? l ⟨p, p.after l.text⟩).toList ++ found)
          (p.after l.text) (cs.drop l.text.length))
    ∨ (∀ t, IsLexeme t → ¬ t <+: cs)
      ∧ scanFrom found p cs = .error ⟨.unrecognisedToken (.ofList cs.head?.toList), p⟩ := by
  by_cases hlexeme : ∃ t, IsLexeme t ∧ t <+: cs
  · obtain ⟨t, ht, rest, rfl⟩ := hlexeme
    obtain ⟨l, hl, -⟩ := exists_first_of_isLexeme ht hopen
    refine .inl ⟨l, hl, isLongest_of_first hl, isFound_ofLexeme? (isProper_of_first hl) _, ?_⟩
    exact scanFrom_step found hne hl
  · have hnone : ∀ t, IsLexeme t → ¬ t <+: cs := fun t ht hbegins => hlexeme ⟨t, ht, hbegins⟩
    refine .inr ⟨hnone, ?_⟩
    rw [scanFrom_eq, scanFrom_of_error hne (first_of_no_lexeme hopen hnone)]
    rfl

theorem scanFrom_longest_at_reserved_prefix :
    ['i', 'f', 'f', 'y', '/', '='] ≠ [] ∧ ¬ IsOpen ['i', 'f', 'f', 'y', '/', '=']
      ∧ IsLongest ['i', 'f', 'f', 'y'] ['i', 'f', 'f', 'y', '/', '=']
      ∧ scanFrom [] .start ['i', 'f', 'f', 'y', '/', '=']
        = scanFrom [⟨.identifier, "iffy", ⟨.start, ⟨4, 1, 5⟩⟩⟩] ⟨4, 1, 5⟩ ['/', '='] := by
  have hne : ['i', 'f', 'f', 'y', '/', '='] ≠ [] := by decide
  have hopen : ¬ IsOpen ['i', 'f', 'f', 'y', '/', '='] := by
    rintro (⟨rest, h, -⟩ | ⟨rest, h, -⟩) <;> exact absurd (List.cons.inj h).1 (by decide)
  have hread : Lexeme.first ['i', 'f', 'f', 'y', '/', '='] = .ok (.word ['i', 'f', 'f', 'y']) := by
    decide +kernel
  rcases scanFrom_longest [] .start hne hopen with ⟨l, hl, hlongest, -, hscan⟩ | ⟨hnone, -⟩
  · rw [hread] at hl
    cases hl
    exact ⟨hne, hopen, hlongest, hscan⟩
  · have hlexeme := isLexeme_text (isProper_of_first hread)
    exact absurd (begins_of_first hread).2 (hnone _ hlexeme)

end Token

end ImpFront
