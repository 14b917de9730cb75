import Mathlib.Data.List.Find
import ImpFront.Proofs.Token.Reading
/-!
# ImpFront.Proofs.Token.Acceptance

**Texts that are read whole.** A text of a class is read as one lexeme in front of
anything that could not continue it. A symbol of one character is continued by the
second character of a longer one; `isContinuation` has these characters, and nothing
else goes wrong where none of them follows.
-/

namespace ImpFront.Lexeme

/-! ### Character classes -/

theorem isDigit_iff {c : Char} : c.isDigit = true ↔ 48 ≤ c.toNat ∧ c.toNat ≤ 57 := by
  simp [Char.isDigit, UInt32.le_iff_toNat_le]

theorem isUpper_iff {c : Char} : c.isUpper = true ↔ 65 ≤ c.toNat ∧ c.toNat ≤ 90 := by
  show decide (65 ≤ c.val ∧ c.val ≤ 90) = true ↔ _
  simp [UInt32.le_iff_toNat_le]

theorem isLower_iff {c : Char} : c.isLower = true ↔ 97 ≤ c.toNat ∧ c.toNat ≤ 122 := by
  show (decide (97 ≤ c.val) && decide (c.val ≤ 122)) = true ↔ _
  simp [UInt32.le_iff_toNat_le]

theorem isWordStart_iff {c : Char} :
    isWordStart c = true
      ↔ (65 ≤ c.toNat ∧ c.toNat ≤ 90) ∨ (97 ≤ c.toNat ∧ c.toNat ≤ 122) ∨ c.toNat = 95 := by
  show (c.isUpper || c.isLower || decide (c = '_')) = true ↔ _
  simp [isUpper_iff, isLower_iff, or_assoc, Char.ext_iff, ← UInt32.toNat_inj]

/-- No blank is a visible ASCII character. -/
theorem isBlank_range {c : Char} (h : Text.isBlank c = true) : c.toNat < 33 ∨ 126 < c.toNat := by
  simp [Text.isBlank] at h
  omega

theorem isWordStart_of_isDigit {c : Char} (h : c.isDigit = true) : isWordStart c = false := by
  rw [isDigit_iff] at h
  rw [Bool.eq_false_iff, ne_eq, isWordStart_iff]
  omega

theorem isWordStart_of_isBlank {c : Char} (h : Text.isBlank c = true) : isWordStart c = false := by
  have := isBlank_range h
  rw [Bool.eq_false_iff, ne_eq, isWordStart_iff]
  omega

theorem isDigit_of_isBlank {c : Char} (h : Text.isBlank c = true) : c.isDigit = false := by
  have := isBlank_range h
  rw [Bool.eq_false_iff, ne_eq, isDigit_iff]
  omega

/-! ### Extents -/

theorem takeWhile_append_eq {p : Char → Bool} {t rest : List Char} (ht : ∀ c ∈ t, p c = true)
    (hrest : ∀ c ∈ rest.head?, p c = false) : (t ++ rest).takeWhile p = t := by
  rw [List.takeWhile_append_of_pos ht]
  cases rest with
  | nil => simp
  | cons c rest => simp [hrest c rfl]

theorem dropWhile_append_eq {p : Char → Bool} {t rest : List Char} (ht : ∀ c ∈ t, p c = true)
    (hrest : ∀ c ∈ rest.head?, p c = false) : (t ++ rest).dropWhile p = rest := by
  rw [List.dropWhile_append_of_pos ht]
  cases rest with
  | nil => rfl
  | cons c rest => simp [hrest c rfl]

/-- A point and digits behind a number belong to it. -/
theorem numberText_point {whole tail : List Char} (hwhole : ∀ c ∈ whole, c.isDigit = true)
    (htail : tail.takeWhile Char.isDigit ≠ []) :
    numberText (whole ++ '.' :: tail) = whole ++ '.' :: tail.takeWhile Char.isDigit := by
  have hpoint : ∀ c ∈ ('.' :: tail).head?, c.isDigit = false := by
    rintro c ⟨⟩
    decide
  unfold numberText
  rw [takeWhile_append_eq hwhole hpoint, dropWhile_append_eq hwhole hpoint]
  exact if_neg htail

/-- A number ends where neither a digit nor a point follows. -/
theorem numberText_append {t rest : List Char} (ht : IsNumber t)
    (hrest : ∀ c ∈ rest.head?, c.isDigit = false ∧ c ≠ '.') : numberText (t ++ rest) = t := by
  have hdigit : ∀ c ∈ rest.head?, c.isDigit = false := fun c hc => (hrest c hc).1
  rcases ht with ⟨-, hdigits⟩ | ⟨whole, fraction, ⟨-, hwhole⟩, ⟨hne, hfraction⟩, rfl⟩
  · unfold numberText
    rw [takeWhile_append_eq hdigits hdigit, dropWhile_append_eq hdigits hdigit]
    dsimp only
    split
    · next tail => exact absurd rfl (hrest '.' rfl).2
    · rfl
  · have htake := takeWhile_append_eq hfraction hdigit
    rw [List.append_assoc, List.cons_append, numberText_point hwhole (by rwa [htake]), htake]

/-- An ordinary character is a part of the body. -/
theorem stringBody?_cons {c : Char} (hquote : c ≠ '"') (hbackslash : c ≠ '\\')
    (hnewline : c ≠ '\n') (rest : List Char) :
    stringBody? (c :: rest) = (stringBody? rest).map (c :: ·) := by
  rw [stringBody?.eq_def]
  split <;> simp_all

/-- A body is read up to the quote behind it. -/
theorem stringBody?_append {body : List Char} (h : IsBody body) (rest : List Char) :
    stringBody? (body ++ '"' :: rest) = some body := by
  induction h with
  | nil => rfl
  | char hquote hbackslash hnewline _ ih =>
    rw [List.cons_append, stringBody?_cons hquote hbackslash hnewline, ih]
    rfl
  | escape hc _ ih =>
    rw [List.cons_append, List.cons_append, stringBody?, if_neg hc, ih]
    rfl

/-! ### Lexemes -/

/-- The first pattern that does not pass decides. -/
theorem first_of_pattern (before : List Pattern) {behind : List Pattern} {p : Pattern}
    {cs : List Char} {r : Except Cause Lexeme}
    (hpatterns : patterns = before ++ p :: behind) (hbefore : ∀ q ∈ before, q cs = none)
    (hp : p cs = some r) : first cs = r := by
  have hnone : before.findSome? (· cs) = none := List.findSome?_eq_none_iff.2 hbefore
  have hfound : patterns.findSome? (· cs) = some r := by
    rw [hpatterns, List.findSome?_append, hnone, Option.none_or, List.findSome?_cons, hp]
  rw [first, hfound, Option.getD_some]

theorem first_of_isWordStart {c : Char} (hc : isWordStart c = true) (rest : List Char) :
    first (c :: rest) = .ok (word (c :: rest.takeWhile isWordChar)) := by
  refine first_of_pattern [] rfl (fun q hq => by cases hq) ?_
  rw [wordPattern, if_pos hc]

/-- A word ends where no character of a word follows. -/
theorem first_word {t rest : List Char} (ht : IsWord t)
    (hrest : ∀ c ∈ rest.head?, isWordChar c = false) : first (t ++ rest) = .ok (word t) := by
  obtain ⟨c, tail, rfl, hc, htail⟩ := ht
  rw [List.cons_append, first_of_isWordStart hc, takeWhile_append_eq htail hrest]

theorem IsNumber.exists_digit {t : List Char} (h : IsNumber t) :
    ∃ c tail, t = c :: tail ∧ c.isDigit = true := by
  rcases h with ⟨hne, hdigits⟩ | ⟨whole, fraction, ⟨hne, hwhole⟩, -, rfl⟩
  · obtain ⟨c, tail, rfl⟩ := List.exists_cons_of_ne_nil hne
    exact ⟨c, tail, rfl, hdigits c (List.mem_cons_self ..)⟩
  · obtain ⟨c, tail, rfl⟩ := List.exists_cons_of_ne_nil hne
    exact ⟨c, _, rfl, hwhole c (List.mem_cons_self ..)⟩

theorem first_of_isDigit {c : Char} (hc : c.isDigit = true) (rest : List Char) :
    first (c :: rest) = .ok (number (numberText (c :: rest))) := by
  refine first_of_pattern [wordPattern] rfl ?_ ?_
  · intro q hq
    obtain rfl := List.mem_singleton.1 hq
    rw [wordPattern, isWordStart_of_isDigit hc]
    rfl
  · rw [numberPattern, if_pos hc]

theorem first_number {t rest : List Char} (ht : IsNumber t)
    (hrest : ∀ c ∈ rest.head?, c.isDigit = false ∧ c ≠ '.') :
    first (t ++ rest) = .ok (number t) := by
  have hwhole := numberText_append ht hrest
  obtain ⟨c, tail, rfl, hc⟩ := ht.exists_digit
  rw [List.cons_append] at hwhole ⊢
  rw [first_of_isDigit hc, hwhole]

theorem first_blank {c : Char} (hc : Text.isBlank c = true) (rest : List Char) :
    first (c :: rest) = .ok (blank (c :: rest.takeWhile Text.isBlank)) := by
  refine first_of_pattern [wordPattern, numberPattern] rfl ?_ ?_
  · intro q hq
    simp only [List.mem_cons, List.not_mem_nil, or_false] at hq
    rcases hq with rfl | rfl
    · rw [wordPattern, isWordStart_of_isBlank hc]
      rfl
    · rw [numberPattern, isDigit_of_isBlank hc]
      rfl
  · rw [blankPattern, if_pos hc]

theorem first_quote {rest : List Char} {r : Except Cause Lexeme}
    (h : stringPattern ('"' :: rest) = some r) : first ('"' :: rest) = r := by
  refine first_of_pattern [wordPattern, numberPattern, blankPattern] rfl ?_ h
  intro q hq
  simp only [List.mem_cons, List.not_mem_nil, or_false] at hq
  rcases hq with rfl | rfl | rfl <;> rfl

theorem first_string {body : List Char} (h : IsBody body) (rest : List Char) :
    first ('"' :: body ++ '"' :: rest) = .ok (string body) := by
  rw [List.cons_append]
  exact first_quote (by rw [stringPattern, stringBody?_append h])

/-! ### Symbols -/

/-- The characters that make another symbol, or a comment, of the symbol before them. -/
def isContinuation (c : Char) : Bool := c = '=' || c = '+' || c = '-' || c = '*' || c = '/'

/-- The marks that begin comments. -/
def commentMarks : List (List Char) := [['/', '/'], ['/', '*']]

theorem lineCommentPattern_eq_none {cs : List Char} (h : ¬ ['/', '/'] <+: cs) :
    lineCommentPattern cs = none := by
  unfold lineCommentPattern
  split
  · exact absurd ⟨_, rfl⟩ h
  · rfl

theorem blockCommentPattern_eq_none {cs : List Char} (h : ¬ ['/', '*'] <+: cs) :
    blockCommentPattern cs = none := by
  unfold blockCommentPattern
  split
  · exact absurd ⟨_, rfl⟩ h
  · rfl

/-- The first symbol of the table that the text begins with is read. -/
theorem findSome?_symbolPattern (kinds : List Kind) (cs : List Char) :
    (kinds.map symbolPattern).findSome? (· cs)
      = (kinds.find? (·.describe.toList.isPrefixOf cs)).map (fun kind => .ok (symbol kind)) := by
  induction kinds with
  | nil => rfl
  | cons kind kinds ih =>
    rw [List.map_cons, List.findSome?_cons, List.find?_cons, symbolPattern]
    cases kind.describe.toList.isPrefixOf cs with
    | true => rfl
    | false => exact ih

/-- A text continues the front of another one only by its next character. -/
theorem prefix_append_iff {a b rest : List Char}
    (h : ∀ c tail, a = b ++ c :: tail → rest.head? ≠ some c) : a <+: b ++ rest ↔ a <+: b := by
  refine ⟨fun ha => ?_, fun ha => ha.trans (List.prefix_append b rest)⟩
  rcases List.prefix_or_prefix_of_prefix ha (List.prefix_append b rest) with hab | ⟨tail, rfl⟩
  · exact hab
  · cases tail with
    | nil => exact ⟨[], by simp⟩
    | cons c tail =>
      obtain ⟨more, hmore⟩ := (List.prefix_append_right_inj b).1 ha
      refine absurd ?_ (h c tail rfl)
      rw [← hmore]
      rfl

/-! #### The table of symbols -/

/-- The symbols that no other symbol, and no comment, begins with. -/
def closedSymbols : List Kind :=
  [.openCurly, .closeCurly, .openParen, .closeParen, .semicolon, .comma, .plusPlus, .minusMinus]

theorem mem_symbolOrder_of_closed : ∀ kind ∈ closedSymbols, kind ∈ symbolOrder := by decide

/-- No symbol begins like a lexeme of another class. -/
theorem beginning_of_symbol : ∀ kind ∈ symbolOrder,
    kind.describe.toList.head?.all (fun c =>
        !isWordStart c && !c.isDigit && !Text.isBlank c && c ≠ '"') = true
      ∧ ∀ mark ∈ commentMarks, ¬ mark <+: kind.describe.toList := by
  decide +kernel

/-- Among the symbols that begin a symbol, itself is found first. What goes on behind it, to a
longer symbol or to a comment mark, is a continuation, and nothing goes on behind a closed one. -/
theorem continuation_of_symbol : ∀ kind ∈ symbolOrder,
    symbolOrder.find? (·.describe.toList.isPrefixOf kind.describe.toList) = some kind
      ∧ ∀ longer ∈ symbolOrder.map (·.describe.toList) ++ commentMarks,
        kind.describe.toList.isPrefixOf longer = true →
          (longer.drop kind.describe.toList.length).head?.all isContinuation = true
            ∧ (kind ∈ closedSymbols → longer.length ≤ kind.describe.toList.length) := by
  decide +kernel

/-- Unless a comment begins, a text is read as the first symbol of the table that it begins with. -/
theorem first_of_find? {kind : Kind} {cs : List Char} (hmark : ∀ mark ∈ commentMarks, ¬ mark <+: cs)
    (hfind : symbolOrder.find? (·.describe.toList.isPrefixOf cs) = some kind) :
    first cs = .ok (symbol kind) := by
  have hbegins := List.find?_some hfind
  obtain ⟨rest, rfl⟩ := List.isPrefixOf_iff_prefix.1 hbegins
  -- The patterns before the symbols look at the first character, or for a comment mark.
  obtain ⟨c, tail, hspelling⟩ := List.exists_cons_of_ne_nil (describe_ne_nil kind)
  have hhead := (beginning_of_symbol kind (List.mem_of_find?_eq_some hfind)).1
  rw [hspelling, List.head?_cons, Option.all_some] at hhead
  simp only [Bool.and_eq_true, Bool.not_eq_true', decide_eq_true_eq] at hhead
  obtain ⟨⟨⟨hword, hdigit⟩, hblank⟩, hquote⟩ := hhead
  have hline := lineCommentPattern_eq_none (hmark _ (by decide))
  have hblock := blockCommentPattern_eq_none (hmark _ (by decide))
  have hother : ∀ q ∈ [wordPattern, numberPattern, blankPattern, stringPattern,
      lineCommentPattern, blockCommentPattern], q (kind.describe.toList ++ rest) = none := by
    intro q hq
    simp only [List.mem_cons, List.not_mem_nil, or_false] at hq
    rcases hq with rfl | rfl | rfl | rfl | rfl | rfl
    · rw [hspelling, List.cons_append, wordPattern, hword]
      rfl
    · rw [hspelling, List.cons_append, numberPattern, hdigit]
      rfl
    · rw [hspelling, List.cons_append, blankPattern, hblank]
      rfl
    · rw [hspelling, List.cons_append]
      unfold stringPattern
      split
      · next heq => exact absurd (List.cons.inj heq).1 hquote
      · rfl
    · exact hline
    · exact hblock
  have hfound : patterns.findSome? (· (kind.describe.toList ++ rest))
      = some (.ok (symbol kind)) := by
    rw [patterns, List.findSome?_append, List.findSome?_eq_none_iff.2 hother, Option.none_or,
      findSome?_symbolPattern, hfind]
    rfl
  rw [first, hfound, Option.getD_some]

/-- A symbol is read where what follows makes no longer symbol of it. -/
theorem first_symbol_of {kind : Kind} (hkind : kind ∈ symbolOrder) {rest : List Char}
    (hrest : ∀ longer ∈ symbolOrder.map (·.describe.toList) ++ commentMarks, ∀ c tail,
      longer = kind.describe.toList ++ c :: tail → rest.head? ≠ some c) :
    first (kind.describe.toList ++ rest) = .ok (symbol kind) := by
  have hbegins : ∀ longer ∈ symbolOrder.map (·.describe.toList) ++ commentMarks,
      (longer <+: kind.describe.toList ++ rest ↔ longer <+: kind.describe.toList) :=
    fun longer hlonger => prefix_append_iff (hrest longer hlonger)
  have hmark : ∀ mark ∈ commentMarks, ¬ mark <+: kind.describe.toList ++ rest := by
    intro mark hmark
    rw [hbegins mark (List.mem_append_right _ hmark)]
    exact (beginning_of_symbol kind hkind).2 mark hmark
  -- The symbols that begin the text are those that begin the symbol alone.
  have hfind : symbolOrder.find? (·.describe.toList.isPrefixOf (kind.describe.toList ++ rest))
      = some kind := by
    rw [← (continuation_of_symbol kind hkind).1]
    refine List.find?_congr fun k hk => ?_
    rw [Bool.eq_iff_iff, List.isPrefixOf_iff_prefix, List.isPrefixOf_iff_prefix]
    exact hbegins _ (List.mem_append_left _ (List.mem_map_of_mem hk))
  exact first_of_find? hmark hfind

/-- A symbol is read in front of a character that does not continue it. -/
theorem first_symbol {kind : Kind} (hkind : kind ∈ symbolOrder) {rest : List Char}
    (hrest : ∀ c ∈ rest.head?, isContinuation c = false) :
    first (kind.describe.toList ++ rest) = .ok (symbol kind) := by
  refine first_symbol_of hkind fun longer hlonger c tail heq hhead => ?_
  obtain ⟨hcontinued, -⟩ := (continuation_of_symbol kind hkind).2 longer hlonger
    (List.isPrefixOf_iff_prefix.2 ⟨c :: tail, heq.symm⟩)
  rw [heq, List.drop_left, List.head?_cons, Option.all_some, hrest c hhead] at hcontinued
  cases hcontinued

/-- A closed symbol is read in front of anything. -/
theorem first_closed {kind : Kind} (hkind : kind ∈ closedSymbols) (rest : List Char) :
    first (kind.describe.toList ++ rest) = .ok (symbol kind) := by
  have hsymbol := mem_symbolOrder_of_closed kind hkind
  refine first_symbol_of hsymbol fun longer hlonger c tail heq hhead => ?_
  obtain ⟨-, hlongest⟩ := (continuation_of_symbol kind hsymbol).2 longer hlonger
    (List.isPrefixOf_iff_prefix.2 ⟨c :: tail, heq.symm⟩)
  have hlength := hlongest hkind
  rw [heq, List.length_append, List.length_cons] at hlength
  omega

end ImpFront.Lexeme
