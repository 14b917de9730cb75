import ImpFront.Proofs.Token.Joined
import ImpFront.Proofs.Token.Sliced
import ImpFront.Token.Fault
/-!
# ImpFront.Proofs.Token.Faults

**A source is refused at its first fault.** What is read in front of a fault is read as well when
the source ends there (`Token.exists_tiles_of_scanFrom_error`), and a fault behind a line is met
whatever the lines before it are (`Token.scanFrom_append_fault`).

The first pattern that does not pass refuses a text exactly if it begins with a fault
(`Lexeme.first_eq_error_iff`). For strings that compares two readings of one literal: a reader
takes a backslash together with the character behind it, whereas a quote is escaped if an odd
number of backslashes stands before it.
-/

namespace ImpFront

namespace Lexeme

variable {cs rest : List Char} {c : Char} {l : Lexeme} {cause : Cause}

/-! ### Unescaped quotes -/

theorem backslashesBefore_cons (h : c ≠ '\\') (rest : List Char) (i : Nat) :
    backslashesBefore (c :: rest) (i + 1) = backslashesBefore rest i := by
  rw [backslashesBefore, List.take_succ_cons, List.reverse_cons, List.takeWhile_append]
  split
  · next hall => simp [h, hall, backslashesBefore]
  · rfl

/-- A backslash and the character behind it change nothing: they are none or two backslashes. -/
theorem backslashesBefore_escape (c : Char) (rest : List Char) (i : Nat) :
    backslashesBefore ('\\' :: c :: rest) (i + 2) % 2 = backslashesBefore rest i % 2 := by
  have hreverse : (('\\' :: c :: rest).take (i + 2)).reverse
      = (rest.take i).reverse ++ [c, '\\'] := by
    simp
  rw [backslashesBefore, hreverse, List.takeWhile_append]
  split
  · next hall =>
    by_cases hc : c = '\\'
    · simp [hc, hall, backslashesBefore]
    · simp [hc, hall, backslashesBefore]
  · rfl

theorem unclosed_cons (hquote : c ≠ '"') (hbackslash : c ≠ '\\') (hnewline : c ≠ '\n') :
    Unclosed (c :: rest) ↔ Unclosed rest := by
  constructor
  · intro h i ⟨hi, heven⟩
    have hmem := h (i + 1) ⟨hi, (backslashesBefore_cons hbackslash rest i).symm ▸ heven⟩
    rw [List.take_succ_cons] at hmem
    exact (List.mem_cons.1 hmem).resolve_left hnewline.symm
  · intro h i ⟨hi, heven⟩
    cases i with
    | zero => exact absurd (Option.some.inj hi) hquote
    | succ i =>
      rw [backslashesBefore_cons hbackslash] at heven
      exact List.mem_cons_of_mem c (h i ⟨hi, heven⟩)

theorem unclosed_escape (hnewline : c ≠ '\n') :
    Unclosed ('\\' :: c :: rest) ↔ Unclosed rest := by
  constructor
  · intro h i ⟨hi, heven⟩
    have hmem := h (i + 2) ⟨hi, (backslashesBefore_escape c rest i).trans heven⟩
    rw [List.take_succ_cons, List.take_succ_cons] at hmem
    have hmem := (List.mem_cons.1 hmem).resolve_left (by decide)
    exact (List.mem_cons.1 hmem).resolve_left hnewline.symm
  · intro h i ⟨hi, heven⟩
    match i with
    | 0 => exact absurd (Option.some.inj hi) (by decide)
    | 1 =>
      -- The character behind a backslash is escaped, so it closes nothing.
      simp [backslashesBefore] at heven
    | i + 2 =>
      rw [backslashesBefore_escape] at heven
      exact List.mem_cons_of_mem _ (List.mem_cons_of_mem c (h i ⟨hi, heven⟩))

/-- Behind a quote there is no body of a literal exactly if no unescaped quote closes it. -/
theorem stringBody?_eq_none_iff (cs : List Char) : stringBody? cs = none ↔ Unclosed cs := by
  fun_induction stringBody? cs with
  | case1 => simp [Unclosed, QuoteAt]
  | case2 rest =>
    refine iff_of_false (by simp) fun h => ?_
    exact absurd (h 0 ⟨rfl, rfl⟩) List.not_mem_nil
  | case3 rest =>
    refine iff_of_true rfl ?_
    rintro i ⟨hi, -⟩
    cases i with
    | zero => exact absurd (Option.some.inj hi) (by decide)
    | succ i => exact List.mem_cons_self ..
  | case4 =>
    refine iff_of_true rfl ?_
    rintro i ⟨hi, -⟩
    cases i with
    | zero => exact absurd (Option.some.inj hi) (by decide)
    | succ i => cases hi
  | case5 rest =>
    refine iff_of_true rfl ?_
    rintro (_ | _ | i) ⟨hi, -⟩
    · exact absurd (Option.some.inj hi) (by decide)
    · exact absurd (Option.some.inj hi) (by decide)
    · exact List.mem_cons_of_mem _ (List.mem_cons_self ..)
  | case6 c rest hnewline ih => rw [Option.map_eq_none_iff, ih, unclosed_escape hnewline]
  | case7 c rest hquote hnewline hlast hescape ih =>
    have hbackslash : c ≠ '\\' := by
      rintro rfl
      cases rest with
      | nil => exact hlast rfl rfl
      | cons d rest => exact hescape d rest rfl rfl
    rw [Option.map_eq_none_iff, ih, unclosed_cons hquote hbackslash hnewline]

/-! ### Faults -/

theorem opensString_iff_unclosed : OpensString ('"' :: rest) ↔ Unclosed rest := by
  rw [opensString_iff, stringBody?_eq_none_iff]

/-- A text is refused if and only if it begins with a fault, and for that reason. -/
theorem first_eq_error_iff (hne : cs ≠ []) : first cs = .error cause ↔ IsFault cs cause := by
  constructor
  · intro h
    by_cases hopen : IsOpen cs
    · rcases hopen with hstring | hcomment
      · rw [first_of_opensString hstring] at h
        obtain rfl := Except.error.inj h
        obtain ⟨rest, rfl, -⟩ := id hstring
        exact .string (opensString_iff_unclosed.1 hstring)
      · rw [first_of_opensComment hcomment] at h
        obtain rfl := Except.error.inj h
        obtain ⟨rest, rfl, hnone⟩ := hcomment
        exact .comment hnone
    · have hnone : ∀ t, IsLexeme t → ¬ t <+: cs := by
        rintro t ht ⟨rest, rfl⟩
        obtain ⟨l, hl, -⟩ := exists_first_of_isLexeme ht hopen
        rw [h] at hl
        cases hl
      rw [first_of_no_lexeme hopen hnone] at h
      obtain rfl := Except.error.inj h
      obtain ⟨c, rest, rfl⟩ := List.exists_cons_of_ne_nil hne
      refine .character ?_ hnone
      rintro rfl
      exact hopen (.inl ⟨rest, rfl, fun t ht => hnone t (.inr (.inr (.inr (.inl ht))))⟩)
  · intro h
    cases h with
    | string hunclosed => exact first_of_opensString (opensString_iff_unclosed.2 hunclosed)
    | comment hnone => exact first_of_opensComment ⟨_, rfl, hnone⟩
    | @character c rest hquote hnone =>
      refine first_of_no_lexeme ?_ hnone
      rintro (⟨_, heq, -⟩ | ⟨_, heq, -⟩)
      · exact hquote (List.cons.inj heq).1
      · -- A slash is a lexeme, even if it opens a comment.
        have hslash : IsLexeme ['/'] :=
          .inr (.inr (.inr (.inr (.inr (.inr ⟨.slash, by decide, rfl⟩)))))
        exact hnone ['/'] hslash (heq ▸ List.prefix_append ['/'] _)

/-- No blank begins with a fault. -/
theorem IsFault.not_blank (h : IsFault cs cause) : ∀ c ∈ cs.head?, Text.isBlank c = false := by
  have hne : cs ≠ [] := by cases h <;> exact List.cons_ne_nil _ _
  exact Token.not_blank_of_first ((first_eq_error_iff hne).2 h) fun _ hblank => by cases hblank

/-! ### Text behind a line -/

/-- Blanks end where a text ends if no blank follows it. -/
theorem first_blank_append {t : List Char} (h : first cs = .ok (.blank t))
    (hrest : ∀ c ∈ rest.head?, Text.isBlank c = false) :
    first (cs ++ rest) = .ok (.blank t) := by
  obtain ⟨hne, behind, rfl⟩ := begins_of_first h
  have hblanks : IsBlanks t := isProper_of_first h
  obtain ⟨c, t, rfl⟩ := List.exists_cons_of_ne_nil hne
  obtain ⟨hc, -⟩ := List.forall_mem_cons.1 hblanks.2
  have hread := first_blank hc (t ++ behind)
  have hsame : (t ++ behind ++ rest).takeWhile Text.isBlank
      = (t ++ behind).takeWhile Text.isBlank := by
    rw [List.takeWhile_append]
    split
    · next hall =>
      have hnone : rest.takeWhile Text.isBlank = [] := by
        cases rest with
        | nil => rfl
        | cons d rest => simp [hrest d rfl]
      rw [hnone, List.append_nil, ((List.takeWhile_prefix _).eq_of_length hall)]
    · rfl
  exact ((first_blank hc _).trans (hsame ▸ hread.symm)).trans h

/-- A lexeme that goes to the end of a line and over it is a blank. -/
theorem eq_blank_of_text_eq (h : first (cs ++ ['\n']) = .ok l) (htext : l.text = cs ++ ['\n']) :
    l = .blank l.text := by
  have hproper := isProper_of_first h
  rcases of_newline_mem (isLexeme_text hproper) (by simp [htext]) with hblanks | hcomment
  · exact @eq_of_text_eq l (.blank l.text) hproper hblanks rfl
  · obtain ⟨body, hbody, -⟩ := hcomment
    have hends : cs ++ ['\n'] = '/' :: '*' :: body ++ ['*'] ++ ['/'] := by
      rw [← htext, hbody]
      simp
    exact absurd (List.append_inj' hends rfl).2 (by decide)

/-- In a text that ends in a newline, a lexeme is read alike when something follows that is no
blank. -/
theorem first_append_of_line (h : first (cs ++ ['\n']) = .ok l)
    (hrest : ∀ c ∈ rest.head?, Text.isBlank c = false) :
    first (cs ++ ['\n'] ++ rest) = .ok l := by
  by_cases hblank : ∃ t, l = .blank t
  · obtain ⟨t, rfl⟩ := hblank
    exact first_blank_append h hrest
  · obtain ⟨hne, hbegins⟩ := begins_of_first h
    rcases List.prefix_concat_iff.1 hbegins with hwhole | hle
    · exact absurd ⟨_, eq_blank_of_text_eq h hwhole⟩ hblank
    · have hcs : cs ≠ [] := fun hnil => hne (List.prefix_nil.1 (hnil ▸ hle))
      rw [List.append_assoc]
      exact first_append_newline hcs (first_of_append h hle) (fun t ht => hblank ⟨t, ht⟩) rest

end Lexeme

open Lexeme Position

namespace Token

variable {source : String} {cs rest : List Char} {cause : Cause}

/-! ### Scans up to a fault -/

/-- Where a scan is refused, the text before falls into lexemes by itself. -/
theorem exists_tiles_of_scanFrom_error {p : Position} {d : Diagnostic}
    (h : scanFrom [] p cs = .error d) :
    ∃ read rest ls, cs = read ++ rest ∧ Tiles read ls ∧ IsFault rest d.cause
      ∧ d.position = p.after read := by
  induction hn : cs.length using Nat.strongRecOn generalizing p cs with
  | ind n ih =>
    subst hn
    cases cs with
    | nil =>
      rw [scanFrom_nil] at h
      cases h
    | cons c tail =>
      have hne : c :: tail ≠ [] := List.cons_ne_nil c tail
      cases hfirst : Lexeme.first (c :: tail) with
      | error cause =>
        rw [scanFrom_of_error hne hfirst] at h
        obtain rfl := Except.error.inj h
        exact ⟨[], c :: tail, [], rfl, .nil, (first_eq_error_iff hne).1 hfirst, rfl⟩
      | ok l =>
        rw [scanFrom_of_first hne hfirst] at h
        cases hbehind : scanFrom [] (p.after l.text) ((c :: tail).drop l.text.length) with
        | ok ts =>
          rw [hbehind] at h
          cases h
        | error e =>
          rw [hbehind] at h
          obtain rfl := Except.error.inj h
          obtain ⟨read, rest, ls, hdrop, htiles, hfault, hplace⟩ :=
            ih _ (length_drop_of_first hfirst) hbehind rfl
          have hcs : c :: tail = l.text ++ read ++ rest := by
            rw [List.append_assoc, ← hdrop, append_drop_of_first hfirst]
          -- The lexeme is read alike when the text ends at the fault.
          have hread : Lexeme.first (l.text ++ read) = .ok l :=
            first_of_append (hcs ▸ hfirst) (List.prefix_append l.text read)
          refine ⟨l.text ++ read, rest, l :: ls, hcs, .cons ?_ hread ?_, hfault, ?_⟩
          · exact List.append_ne_nil_of_left_ne_nil (begins_of_first hfirst).1 read
          · rwa [List.drop_left]
          · rw [hplace, after_append]

/-- A fault behind a text that falls into lexemes and is empty or ends in a newline is met. -/
theorem scanFrom_append_fault {ls : List Lexeme} (htiles : Tiles cs ls)
    (hline : ∀ c ∈ cs.getLast?, c = '\n') (hfault : IsFault rest cause) (p : Position) :
    scanFrom [] p (cs ++ rest) = .error ⟨cause, p.after cs⟩ := by
  induction htiles generalizing p with
  | nil =>
    have hne : rest ≠ [] := by cases hfault <;> exact List.cons_ne_nil _ _
    exact scanFrom_of_error hne ((first_eq_error_iff hne).2 hfault)
  | @cons cs l ls hne hfirst _ ih =>
    have hread : Lexeme.first (cs ++ rest) = .ok l := by
      obtain ⟨front, c, rfl⟩ := (List.eq_nil_or_concat' cs).resolve_left hne
      obtain rfl : c = '\n' := hline c (by simp)
      exact first_append_of_line hfirst hfault.not_blank
    have hlater : ∀ c ∈ (cs.drop l.text.length).getLast?, c = '\n' := by
      intro c hc
      rw [List.getLast?_drop] at hc
      split at hc
      · cases hc
      · exact hline c hc
    have hle := (begins_of_first hfirst).2.length_le
    rw [scanFrom_of_first (List.append_ne_nil_of_left_ne_nil hne rest) hread,
      List.drop_append_of_le_length hle, ih hlater, ← after_append, append_drop_of_first hfirst]
    rfl

/-! ### Sources -/

/-- **A source is refused at its first fault.** If a source is refused, the text before that place
is scanned by itself, and what stands there is a fault of that kind. And behind a source that is
scanned and is empty or ends in a newline, a fault is where the whole is refused, for that fault. -/
theorem scan_error_at_fault (hsize : source.utf8ByteSize < Cause.maxSourceBytes) :
    (∀ d, scan source = .error d → ∃ before rest, source.toList = before ++ rest
      ∧ byteLength before = d.position.offset ∧ (∃ ts, scan (.ofList before) = .ok ts)
      ∧ IsFault rest d.cause)
    ∧ ∀ a rest cause, source = a ++ rest → (∃ ts, scan a = .ok ts) →
      (a = "" ∨ a.toList.getLast? = some '\n') → IsFault rest.toList cause →
      ∃ p, scan source = .error ⟨cause, p⟩ ∧ p.offset = a.utf8ByteSize := by
  have hle := Nat.le_of_lt hsize
  constructor
  · intro d h
    rw [scan_of_size hle] at h
    obtain ⟨before, rest, ls, hsource, htiles, hfault, hplace⟩ := exists_tiles_of_scanFrom_error h
    refine ⟨before, rest, hsource, ?_, ⟨layout .start ls, ?_⟩, hfault⟩
    · rw [hplace, after_offset]
      exact (Nat.zero_add _).symm
    · refine scan_eq_ok_iff.2 ⟨?_, ls, by rwa [String.toList_ofList], rfl⟩
      have hbytes := congrArg byteLength hsource
      rw [byteLength_toList, byteLength_append] at hbytes
      rw [← byteLength_toList, String.toList_ofList]
      omega
  · rintro a rest cause rfl ⟨ts, hscan⟩ hline hfault
    obtain ⟨-, ls, htiles, -⟩ := scan_eq_ok_iff.1 hscan
    have hlast : ∀ c ∈ a.toList.getLast?, c = '\n' := by
      intro c hc
      rcases hline with rfl | hnewline
      · cases hc
      · rw [hnewline] at hc
        exact (Option.some.inj hc).symm
    refine ⟨Position.start.after a.toList, ?_, ?_⟩
    · rw [scan_of_size hle, String.toList_append]
      exact scanFrom_append_fault htiles hlast hfault .start
    · rw [after_offset, byteLength_toList]
      exact Nat.zero_add _

theorem scan_error_at_fault_at_escaped_quote :
    scan "x\n" = .ok [⟨.identifier, "x", ⟨⟨0, 1, 1⟩, ⟨1, 1, 2⟩⟩⟩, .endAt ⟨2, 2, 1⟩]
      ∧ IsFault ['"', '\\', '"'] .unterminatedString
      ∧ ∃ p, scan "x\n\"\\\"" = .error ⟨.unterminatedString, p⟩ ∧ p.offset = 2
        ∧ ∃ before rest, "x\n\"\\\"".toList = before ++ rest ∧ byteLength before = 2
          ∧ IsFault rest .unterminatedString := by
  have hsize : "x\n\"\\\"".utf8ByteSize < Cause.maxSourceBytes := by decide
  have hscan : scan "x\n" = .ok [⟨.identifier, "x", ⟨⟨0, 1, 1⟩, ⟨1, 1, 2⟩⟩⟩, .endAt ⟨2, 2, 1⟩] := by
    decide +kernel
  have hfault : IsFault ['"', '\\', '"'] .unterminatedString :=
    .string ((stringBody?_eq_none_iff ['\\', '"']).1 (by decide))
  obtain ⟨hrefused, hmet⟩ := scan_error_at_fault hsize
  obtain ⟨p, hp, hoffset⟩ := hmet "x\n" "\"\\\"" _ rfl ⟨_, hscan⟩ (.inr (by decide)) hfault
  have hoffset : p.offset = 2 := hoffset
  obtain ⟨before, rest, hsource, hbytes, -, hrest⟩ := hrefused _ hp
  exact ⟨hscan, hfault, p, hp, hoffset, before, rest, hsource, hbytes.trans hoffset, hrest⟩

end Token

end ImpFront
