import ImpFront.Proofs.Token.LongestMatch
import ImpFront.Proofs.Token.Lossless
/-!
# ImpFront.Proofs.Token.Joined

**Sources joined by a newline.** The tokens of two sources with a newline in between are the
tokens of the first and then those of the second, moved behind it. No lexeme of the first
goes on behind the newline, except that blanks join blanks (`Lexeme.first_append_newline`),
and a scan does the same wherever its text stands (`Token.scanFrom_shift`).
-/

namespace ImpFront

/-! ### Places further on -/

namespace Position

/-- The place some bytes and lines further on, in the same column. -/
def shift (bytes lines : Nat) (p : Position) : Position :=
  ⟨p.offset + bytes, p.line + lines, p.column⟩

theorem step_shift (bytes lines : Nat) (p : Position) (c : Char) :
    (p.shift bytes lines).step c = (p.step c).shift bytes lines := by
  unfold step shift
  split <;> simp [Nat.add_right_comm]

theorem after_shift (bytes lines : Nat) (p : Position) (text : List Char) :
    (p.shift bytes lines).after text = (p.after text).shift bytes lines := by
  induction text generalizing p with
  | nil => rfl
  | cons c text ih => rw [after_cons, after_cons, step_shift, ih]

/-- Behind a newline, places are those of a text that starts there, shifted. -/
theorem ofPrefix_append_newline (text : List Char) :
    ofPrefix (text ++ ['\n']) = start.shift (byteLength text + 1) (text.count '\n' + 1) := by
  have hsize : '\n'.utf8Size = 1 := rfl
  unfold ofPrefix
  rw [lastLine_append_newline]
  simp [shift, start, hsize, Nat.add_comm]

end Position

/-- The stretch some bytes and lines further on. -/
def Span.shift (bytes lines : Nat) (s : Span) : Span :=
  ⟨s.start.shift bytes lines, s.stop.shift bytes lines⟩

/-- The token some bytes and lines further on. -/
def Token.shift (bytes lines : Nat) (t : Token) : Token :=
  ⟨t.kind, t.text, t.span.shift bytes lines⟩

/-- The refusal some bytes and lines further on. -/
def Diagnostic.shift (bytes lines : Nat) (d : Diagnostic) : Diagnostic :=
  ⟨d.cause, d.position.shift bytes lines⟩

namespace Lexeme

variable {cs rest : List Char} {l : Lexeme}

/-! ### Lexemes with newlines -/

theorem newline_not_mem_body {body : List Char} (h : IsBody body) : '\n' ∉ body := by
  induction h with
  | nil => exact List.not_mem_nil
  | char _ _ hnewline _ ih => exact List.not_mem_cons_of_ne_of_not_mem hnewline.symm ih
  | escape hnewline _ ih =>
    refine List.not_mem_cons_of_ne_of_not_mem (by decide) ?_
    exact List.not_mem_cons_of_ne_of_not_mem hnewline.symm ih

theorem newline_not_mem_symbol : ∀ kind ∈ symbolOrder, '\n' ∉ kind.describe.toList := by
  decide +kernel

/-- Only blanks and block comments go over the end of a line. -/
theorem of_newline_mem {t : List Char} (ht : IsLexeme t) (h : '\n' ∈ t) :
    IsBlanks t ∨ IsBlockComment t := by
  rcases ht with hword | hnumber | hblanks | hstring | hline | hblock | hsymbol
  · obtain ⟨c, tail, rfl, hc, htail⟩ := hword
    rcases List.mem_cons.1 h with rfl | hmem
    · exact absurd hc (by decide)
    · exact absurd (htail _ hmem) (by decide)
  · rcases hnumber with ⟨-, hdigits⟩ | ⟨whole, fraction, ⟨-, hwhole⟩, ⟨-, hfraction⟩, rfl⟩
    · exact absurd (hdigits _ h) (by decide)
    · rcases List.mem_append.1 h with hmem | hmem
      · exact absurd (hwhole _ hmem) (by decide)
      · exact absurd (hfraction _ ((List.mem_cons.1 hmem).resolve_left (by decide))) (by decide)
  · exact .inl hblanks
  · obtain ⟨body, hbody, rfl⟩ := hstring
    have hmem : '\n' ∈ body := by simpa using h
    exact absurd hmem (newline_not_mem_body hbody)
  · obtain ⟨body, hbody, rfl⟩ := hline
    have hmem : '\n' ∈ body := by simpa using h
    exact absurd hmem hbody
  · exact .inr hblock
  · obtain ⟨kind, hkind, rfl⟩ := hsymbol
    exact absurd h (newline_not_mem_symbol kind hkind)

/-! ### A newline behind a text -/

theorem not_isOpen_append_newline (hne : cs ≠ []) (h : ¬ IsOpen cs) (rest : List Char) :
    ¬ IsOpen (cs ++ '\n' :: rest) := by
  obtain ⟨c, cs, rfl⟩ := List.exists_cons_of_ne_nil hne
  rintro (⟨r, heq, hnone⟩ | ⟨r, heq, hnone⟩)
  · obtain ⟨rfl, rfl⟩ := List.cons.inj heq
    refine h (.inl ⟨cs, rfl, fun t ht hprefix => hnone t ht ?_⟩)
    exact hprefix.trans (List.prefix_append ('"' :: cs) _)
  · obtain ⟨rfl, htail⟩ := List.cons.inj heq
    cases cs with
    | nil => exact absurd (List.cons.inj htail).1 (by decide)
    | cons d cs =>
      obtain ⟨rfl, rfl⟩ := List.cons.inj htail
      refine h (.inr ⟨cs, rfl, fun hend => hnone ?_⟩)
      exact hend.trans (List.prefix_append cs _).isInfix

/-- A block comment that is closed does not go on behind the text that closes it. -/
theorem not_prefix_blockComment (hopen : ¬ IsOpen cs) (hne : cs ≠ []) {t : List Char}
    (ht : IsBlockComment t) : ¬ cs ++ ['\n'] <+: t := by
  obtain ⟨body, rfl, hbody⟩ := ht
  intro hprefix
  obtain ⟨c, cs, rfl⟩ := List.exists_cons_of_ne_nil hne
  obtain ⟨rfl, hstar⟩ := List.cons_prefix_cons.1 hprefix
  cases cs with
  | nil => exact absurd (List.cons_prefix_cons.1 hstar).1 (by decide)
  | cons d cs =>
    obtain ⟨rfl, hbehind⟩ := List.cons_prefix_cons.1 hstar
    have hclosed : ['*', '/'] <:+: cs := by
      by_contra hnone
      exact hopen (.inr ⟨cs, rfl, hnone⟩)
    -- The last character of the comment is no newline, so the text ends before it.
    have hlast : cs ++ ['\n'] <+: body ++ ['*'] := by
      have hwhole : cs ++ ['\n'] <+: body ++ ['*'] ++ ['/'] := by simpa using hbehind
      rcases List.prefix_concat_iff.1 hwhole with heq | hle
      · exact absurd (congrArg List.getLast? heq) (by simp)
      · exact hle
    exact hbody (hclosed.trans ((List.prefix_append cs _).trans hlast).isInfix)

/-- A lexeme that is no blank does not change when a newline is put behind the text. -/
theorem first_append_newline (hne : cs ≠ []) (h : first cs = .ok l) (hblank : ∀ t, l ≠ blank t)
    (rest : List Char) : first (cs ++ '\n' :: rest) = .ok l := by
  have hopen := not_isOpen_of_first h
  have hlongest := isLongest_of_first h
  have hproper := isProper_of_first h
  -- The longer text has a longest lexeme as well, and this lexeme is a front of it.
  obtain ⟨behind, hbehind⟩ := hlongest.isPrefix
  have hcs : cs ++ '\n' :: rest = l.text ++ (behind ++ '\n' :: rest) := by
    rw [← List.append_assoc, hbehind]
  obtain ⟨l', hl', hle⟩ : ∃ l', first (cs ++ '\n' :: rest) = .ok l' ∧ l.text <+: l'.text := by
    have hopen' := not_isOpen_append_newline hne hopen rest
    rw [hcs] at hopen' ⊢
    exact exists_first_of_isLexeme hlongest.isLexeme hopen'
  have hproper' := isProper_of_first hl'
  have hlexeme' := isLexeme_text hproper'
  have hprefix' := (begins_of_first hl').2
  have hseam : cs ++ ['\n'] <+: cs ++ '\n' :: rest :=
    (List.prefix_append_right_inj cs).2 (List.prefix_append ['\n'] rest)
  -- It does not reach behind the newline: only blanks and comments could.
  have hinside : ¬ cs ++ ['\n'] <+: l'.text := by
    intro hover
    have hmem : '\n' ∈ l'.text := hover.subset (by simp)
    rcases of_newline_mem hlexeme' hmem with hblanks | hcomment
    · have hblanks' : IsBlanks l.text :=
        ⟨(begins_of_first h).1, fun c hc => hblanks.2 c (hle.subset hc)⟩
      exact hblank l.text (@eq_of_text_eq l (.blank l.text) hproper hblanks' rfl)
    · exact not_prefix_blockComment hopen hne hcomment hover
  have hcovered : l'.text <+: cs := by
    rcases List.prefix_or_prefix_of_prefix hprefix' hseam with hshort | hover
    · rcases List.prefix_concat_iff.1 hshort with heq | hshort
      · exact absurd (heq ▸ List.prefix_rfl) hinside
      · exact hshort
    · exact absurd hover hinside
  have htext : l.text = l'.text :=
    hle.eq_of_length_le (hlongest.longest _ hlexeme' hcovered)
  rw [hl', eq_of_text_eq hproper hproper' htext]

end Lexeme

open Lexeme Position

namespace Token

variable {cs rest : List Char} {p : Position}

/-! ### Scans further on -/

/-- A scan that starts further on finds the same further on. -/
theorem scanFrom_shift (bytes lines : Nat) (p : Position) (cs : List Char) :
    scanFrom [] (p.shift bytes lines) cs =
      match scanFrom [] p cs with
      | .ok ts => .ok (ts.map (shift bytes lines))
      | .error e => .error (e.shift bytes lines) := by
  induction hn : cs.length using Nat.strongRecOn generalizing p cs with
  | ind n ih =>
    subst hn
    cases cs with
    | nil =>
      rw [scanFrom_nil, scanFrom_nil]
      rfl
    | cons c rest =>
      have hne : c :: rest ≠ [] := List.cons_ne_nil c rest
      cases hfirst : Lexeme.first (c :: rest) with
      | error cause =>
        rw [scanFrom_of_error hne hfirst, scanFrom_of_error hne hfirst]
        rfl
      | ok l =>
        rw [scanFrom_of_first hne hfirst, scanFrom_of_first hne hfirst, after_shift,
          ih _ (length_drop_of_first hfirst) _ _ rfl]
        cases scanFrom [] (p.after l.text) ((c :: rest).drop l.text.length) with
        | error e => rfl
        | ok ts => cases l <;> rfl

/-- Blanks in front of a text only move the place. -/
theorem scanFrom_skip (p : Position) (cs : List Char) :
    scanFrom [] p cs = scanFrom [] (p.after (cs.takeWhile Text.isBlank))
      (cs.dropWhile Text.isBlank) := by
  cases cs with
  | nil => rfl
  | cons c rest =>
    by_cases hc : Text.isBlank c = true
    · have hfirst := first_blank hc rest
      have htake : (c :: rest).takeWhile Text.isBlank = c :: rest.takeWhile Text.isBlank :=
        List.takeWhile_cons_of_pos hc
      have hsplit := List.takeWhile_append_dropWhile (p := Text.isBlank) (l := c :: rest)
      have hdrop : (c :: rest).drop (c :: rest.takeWhile Text.isBlank).length
          = (c :: rest).dropWhile Text.isBlank := by
        rw [← htake]
        nth_rewrite 2 [← hsplit]
        exact List.drop_left
      rw [scanFrom_of_first (List.cons_ne_nil c rest) hfirst, Lexeme.text, hdrop, htake]
      cases scanFrom [] (p.after (c :: rest.takeWhile Text.isBlank))
        ((c :: rest).dropWhile Text.isBlank) <;> rfl
    · rw [List.takeWhile_cons_of_neg hc, List.dropWhile_cons_of_neg hc, after_nil]

theorem scanFrom_blanks {t : List Char} (ht : ∀ c ∈ t, Text.isBlank c = true) (p : Position)
    (rest : List Char) : scanFrom [] p (t ++ rest) = scanFrom [] (p.after t) rest := by
  rw [scanFrom_skip, List.takeWhile_append_of_pos ht, List.dropWhile_append_of_pos ht, after_append,
    ← scanFrom_skip]

theorem layout_ne_nil (p : Position) (ls : List Lexeme) : layout p ls ≠ [] := by
  induction ls generalizing p with
  | nil => exact List.cons_ne_nil _ _
  | cons l ls ih => exact List.append_ne_nil_of_right_ne_nil _ (ih _)

/-- The lexemes of a text are read in front of a newline as they are read alone. -/
theorem scanFrom_append_newline {ls : List Lexeme} (h : Tiles cs ls) (p : Position)
    (rest : List Char) :
    scanFrom [] p (cs ++ '\n' :: rest)
      = (scanFrom [] (p.after (cs ++ ['\n'])) rest).map ((layout p ls).dropLast ++ ·) := by
  induction h generalizing p with
  | nil =>
    rw [List.nil_append, List.nil_append, ← List.singleton_append,
      scanFrom_blanks (List.forall_mem_singleton.2 Text.isBlank_newline) p rest]
    cases scanFrom [] (p.after ['\n']) rest <;> rfl
  | @cons cs l ls hne hfirst _ ih =>
    have hcs := append_drop_of_first hfirst
    -- The first lexeme is read alike, or it is a blank and its place is passed alike.
    have hstep : scanFrom [] p (cs ++ '\n' :: rest)
        = (scanFrom [] (p.after l.text) (cs.drop l.text.length ++ '\n' :: rest)).map
            ((ofLexeme? l ⟨p, p.after l.text⟩).toList ++ ·) := by
      by_cases hblank : ∃ t, l = .blank t
      · obtain ⟨t, rfl⟩ := hblank
        have hblanks : IsBlanks t := isProper_of_first hfirst
        nth_rewrite 1 [← hcs]
        rw [List.append_assoc, Lexeme.text, scanFrom_blanks hblanks.2]
        cases scanFrom [] (p.after t) (cs.drop t.length ++ '\n' :: rest) <;> rfl
      · have hread := first_append_newline hne hfirst (fun t ht => hblank ⟨t, ht⟩) rest
        have hle := (begins_of_first hfirst).2.length_le
        rw [scanFrom_of_first (by simp) hread, List.drop_append_of_le_length hle]
    have hlast := layout_ne_nil (p.after l.text) ls
    have hplace : (p.after l.text).after (cs.drop l.text.length ++ ['\n'])
        = p.after (cs ++ ['\n']) := by
      rw [← after_append, ← List.append_assoc, hcs]
    rw [hstep, ih, hplace, layout, List.dropLast_append_of_ne_nil hlast]
    cases scanFrom [] (p.after (cs ++ ['\n'])) rest <;> simp [Except.map]

/-! ### Joined sources -/

variable {a b : String} {ts : List Token}

theorem scan_of_size {source : String} (h : source.utf8ByteSize ≤ Cause.maxSourceBytes) :
    scan source = scanFrom [] .start source.toList := by
  rw [scan, checkSize, if_pos h]
  rfl

/-- The end token is the last one and the only one. -/
theorem exists_others_of_scan (h : scan a = .ok ts) :
    ∃ others p, ts = others ++ [.endAt p] ∧ ∀ t ∈ others, t.kind ≠ .eof := by
  obtain ⟨-, ls, htiles, rfl⟩ := scan_eq_ok_iff.1 h
  obtain ⟨others, p, hlayout, -, hcovers⟩ :=
    covers_layout (p := .start) htiles (List.nil_append _).symm rfl
  exact ⟨others, p, hlayout, fun t ht => (hcovers t ht).ne_eof⟩

/-- Behind a source that is scanned and a newline, another one is scanned as it is alone, further
on. -/
theorem scan_joined (ha : scan a = .ok ts)
    (hsize : (a ++ "\n" ++ b).utf8ByteSize < Cause.maxSourceBytes) :
    scan (a ++ "\n" ++ b) =
      match scan b with
      | .ok us =>
        .ok (ts.dropLast ++ us.map (shift (a.utf8ByteSize + 1) (a.toList.count '\n' + 1)))
      | .error e => .error (e.shift (a.utf8ByteSize + 1) (a.toList.count '\n' + 1)) := by
  obtain ⟨-, ls, htiles, rfl⟩ := scan_eq_ok_iff.1 ha
  have hb : b.utf8ByteSize ≤ Cause.maxSourceBytes := by
    rw [String.utf8ByteSize_append] at hsize
    omega
  have htext : (a ++ "\n" ++ b).toList = a.toList ++ '\n' :: b.toList := by
    simp
  have hplace : Position.start.after (a.toList ++ ['\n'])
      = Position.start.shift (a.utf8ByteSize + 1) (a.toList.count '\n' + 1) := by
    rw [← byteLength_toList, ← ofPrefix_append_newline]
    exact after_ofPrefix [] _
  rw [scan_of_size (Nat.le_of_lt hsize), scan_of_size hb, htext, scanFrom_append_newline htiles,
    hplace, scanFrom_shift]
  cases scanFrom [] .start b.toList <;> rfl

/-- **Scanning goes line by line.** Let a source be scanned, so that its tokens are some others and
the end token. With a newline and a second source behind it, the tokens are those others and then
the tokens of the second source, moved by the bytes and lines in front of them, in their columns;
if the second source is refused, the whole is refused for the same cause at the place so moved. -/
theorem scan_append_newline (ha : scan a = .ok ts)
    (hsize : (a ++ "\n" ++ b).utf8ByteSize < Cause.maxSourceBytes) :
    (∃ others p, ts = others ++ [.endAt p] ∧ (∀ t ∈ others, t.kind ≠ .eof)
      ∧ ∀ us, scan b = .ok us → scan (a ++ "\n" ++ b)
        = .ok (others ++ us.map (shift (a.utf8ByteSize + 1) (a.toList.count '\n' + 1))))
    ∧ ∀ e, scan b = .error e → scan (a ++ "\n" ++ b)
        = .error (e.shift (a.utf8ByteSize + 1) (a.toList.count '\n' + 1)) := by
  have hjoined := scan_joined ha hsize
  obtain ⟨others, p, rfl, hopen⟩ := exists_others_of_scan ha
  rw [List.dropLast_concat] at hjoined
  refine ⟨⟨others, p, rfl, hopen, fun us hus => ?_⟩, fun e he => ?_⟩
  · rw [hjoined, hus]
  · rw [hjoined, he]

theorem scan_append_newline_at_slashes :
    scan "x /" = .ok [⟨.identifier, "x", ⟨⟨0, 1, 1⟩, ⟨1, 1, 2⟩⟩⟩,
        ⟨.slash, "/", ⟨⟨2, 1, 3⟩, ⟨3, 1, 4⟩⟩⟩, .endAt ⟨3, 1, 4⟩]
      ∧ ("x /" ++ "\n" ++ "/ \"y").utf8ByteSize < Cause.maxSourceBytes
      ∧ scan ("x /" ++ "\n" ++ "/ \"y") = .error ⟨.unterminatedString, ⟨6, 2, 3⟩⟩ := by
  have ha : scan "x /" = .ok [⟨.identifier, "x", ⟨⟨0, 1, 1⟩, ⟨1, 1, 2⟩⟩⟩,
      ⟨.slash, "/", ⟨⟨2, 1, 3⟩, ⟨3, 1, 4⟩⟩⟩, .endAt ⟨3, 1, 4⟩] := by
    decide +kernel
  have hb : scan "/ \"y" = .error ⟨.unterminatedString, ⟨2, 1, 3⟩⟩ := by decide +kernel
  have hsize : ("x /" ++ "\n" ++ "/ \"y").utf8ByteSize < Cause.maxSourceBytes := by decide
  exact ⟨ha, hsize, (scan_append_newline ha hsize).2 _ hb⟩

end Token

end ImpFront
