import ImpFront.Proofs.Token.Joined
import ImpFront.Token.Passage
/-!
# ImpFront.Proofs.Token.Counters

**Do lines and columns fit 32 bits?** The size of a source is limited so that offsets fit. Offsets
count from zero, lines and columns from one, so they fit as well for every source below the limit.
At the limit itself there are two sorts of sources for which they do not: those that are nothing but
newlines, and those that are one line of one-byte characters and are scanned to their end
(`Token.passed_fits_iff`).
-/

namespace ImpFront

namespace Position

variable {p q : Position} {text : List Char}

/-! ### Passages -/

theorem passage_append (p : Position) (a b : List Char) :
    p.passage (a ++ b) = p.passage a ++ (p.after a).passage b := by
  induction a generalizing p with
  | nil => rfl
  | cons c a ih => rw [List.cons_append, passage, ih, passage, after_cons, List.cons_append]

/-- What is passed are the places behind the fronts of the text. -/
theorem mem_passage_iff :
    q ∈ p.passage text ↔ ∃ a b, text = a ++ b ∧ a ≠ [] ∧ q = p.after a := by
  constructor
  · intro h
    induction text generalizing p with
    | nil => cases h
    | cons c text ih =>
      rcases List.mem_cons.1 h with rfl | h
      · exact ⟨[c], text, rfl, List.cons_ne_nil _ _, rfl⟩
      · obtain ⟨a, b, rfl, -, rfl⟩ := ih h
        exact ⟨c :: a, b, rfl, List.cons_ne_nil _ _, rfl⟩
  · rintro ⟨a, b, rfl, hne, rfl⟩
    obtain ⟨front, c, rfl⟩ := (List.eq_nil_or_concat' a).resolve_left hne
    rw [passage_append, passage_append, after_append]
    exact List.mem_append_left _ (List.mem_append_right _ (List.mem_cons_self ..))

/-! ### Counts -/

/-- Only one-byte characters fill as many bytes as there are characters. -/
theorem byteLength_eq_length_iff :
    byteLength text = text.length ↔ ∀ c ∈ text, c.utf8Size = 1 := by
  induction text with
  | nil => simp
  | cons c text ih =>
    have hpos := c.utf8Size_pos
    have hle := length_le_byteLength text
    rw [byteLength_cons, List.length_cons, List.forall_mem_cons, ← ih]
    omega

/-- Only a text without newlines is its own last line. -/
theorem length_lastLine_eq_iff : (lastLine text).length = text.length ↔ '\n' ∉ text := by
  have hlength : text.length = text.reverse.length := List.length_reverse.symm
  unfold lastLine
  rw [List.length_reverse, hlength]
  constructor
  · intro h hmem
    have hwhole := (List.takeWhile_prefix _).eq_of_length h
    have hall := List.takeWhile_eq_self_iff.1 hwhole '\n' (List.mem_reverse.2 hmem)
    exact absurd hall (by decide)
  · intro h
    rw [List.takeWhile_eq_self_iff.2]
    intro c hc
    refine decide_eq_true ?_
    rintro rfl
    exact h (List.mem_reverse.1 hc)

/-- The limit is the largest number of 32 bits. -/
theorem size_eq : UInt32.size = 1 + Cause.maxSourceBytes := rfl

/-- Behind a text within the limit, line and column fit unless the text is full. -/
theorem fits_ofPrefix_iff (h : byteLength text ≤ Cause.maxSourceBytes) :
    (ofPrefix text).Fits ↔ ¬ Full text := by
  have hlength := length_le_byteLength text
  have hlines : text.count '\n' ≤ text.length := List.count_le_length
  have hcolumns := length_lastLine_le text
  have hfits : (ofPrefix text).Fits
      ↔ 1 + text.count '\n' < UInt32.size ∧ 1 + (lastLine text).length < UInt32.size := Iff.rfl
  rw [hfits, size_eq, ← not_iff_not, not_not]
  constructor
  · intro hover
    have hbytes : byteLength text = text.length := by omega
    have hlimit : byteLength text = Cause.maxSourceBytes := by omega
    refine ⟨hlimit, ?_⟩
    by_cases hcount : text.count '\n' = text.length
    · exact .inl fun c hc => (List.count_eq_length.1 hcount c hc).symm
    · have hnewline := length_lastLine_eq_iff.1 (show (lastLine text).length = text.length by omega)
      have hone := byteLength_eq_length_iff.1 hbytes
      exact .inr fun c hc => ⟨fun hc' => hnewline (hc' ▸ hc), hone c hc⟩
  · rintro ⟨hlimit, hnewlines | hline⟩
    · have hcount := List.count_eq_length.2 fun c hc => (hnewlines c hc).symm
      have hone : ∀ c ∈ text, c.utf8Size = 1 := fun c hc => hnewlines c hc ▸ rfl
      have hbytes := byteLength_eq_length_iff.2 hone
      omega
    · have hnewline : '\n' ∉ text := fun hmem => (hline _ hmem).1 rfl
      have hwhole := length_lastLine_eq_iff.2 hnewline
      have hbytes := byteLength_eq_length_iff.2 fun c hc => (hline c hc).2
      omega

end Position

open Position

namespace Token

variable {source : String}

/-! ### Places of a scan -/

/-- A scan passes the places of what it reads: the whole text, or the front of it up to where it is
refused. -/
theorem exists_read_of_scanPassing (p : Position) (cs : List Char) :
    ∃ read rest, cs = read ++ rest ∧ (scanPassing p cs).1 = p.passage read
      ∧ (rest = [] ↔ ∃ ts, scanFrom [] p cs = .ok ts) := by
  induction hn : cs.length using Nat.strongRecOn generalizing p cs with
  | ind n ih =>
    subst hn
    cases cs with
    | nil => exact ⟨[], [], rfl, by rw [scanPassing_nil]; rfl, by simp⟩
    | cons c tail =>
      have hne : c :: tail ≠ [] := List.cons_ne_nil c tail
      cases hfirst : Lexeme.first (c :: tail) with
      | error cause =>
        refine ⟨[], c :: tail, rfl, by rw [scanPassing_of_error hne hfirst]; rfl, ?_⟩
        rw [scanFrom_of_error hne hfirst]
        simp
      | ok l =>
        obtain ⟨read, rest, hdrop, hpassed, hwhole⟩ :=
          ih _ (Lexeme.length_drop_of_first hfirst) (p.after l.text) _ rfl
        refine ⟨l.text ++ read, rest, ?_, ?_, ?_⟩
        · rw [List.append_assoc, ← hdrop, append_drop_of_first hfirst]
        · rw [scanPassing_of_first hne hfirst, hpassed, passage_append]
        · rw [hwhole, scanFrom_of_first hne hfirst]
          cases scanFrom [] (p.after l.text) ((c :: tail).drop l.text.length) <;>
            simp [Except.map]

/-- Every place that a scan passes is behind a front of the source. -/
theorem exists_front_of_mem_passed {p : Position} (h : p ∈ passed source) :
    ∃ a b, source.toList = a ++ b ∧ p = ofPrefix a
      ∧ (b = [] → ∃ ts, scanFrom [] .start source.toList = .ok ts) := by
  obtain ⟨read, rest, hsource, hpassed, hwhole⟩ := exists_read_of_scanPassing .start source.toList
  rw [passed, hpassed] at h
  obtain ⟨a, b, rfl, -, rfl⟩ := mem_passage_iff.1 h
  refine ⟨a, b ++ rest, ?_, after_ofPrefix [] a, fun hnil => ?_⟩
  · rw [hsource, List.append_assoc]
  · exact hwhole.1 (List.append_eq_nil_iff.1 hnil).2

/-- A scan that goes through passes the place behind the whole source. -/
theorem ofPrefix_mem_passed (hne : source.toList ≠ [])
    (h : ∃ ts, scanFrom [] .start source.toList = .ok ts) :
    ofPrefix source.toList ∈ passed source := by
  obtain ⟨read, rest, hsource, hpassed, hwhole⟩ := exists_read_of_scanPassing .start source.toList
  obtain rfl := hwhole.2 h
  rw [List.append_nil] at hsource
  rw [passed, hpassed, ← hsource]
  exact mem_passage_iff.2 ⟨_, [], (List.append_nil _).symm, hne, (after_ofPrefix [] _).symm⟩

theorem le_of_checkSize {bytes : Nat} (h : checkSize bytes = .ok ()) :
    bytes ≤ Cause.maxSourceBytes := by
  unfold checkSize at h
  split at h
  · assumption
  · cases h

/-- **Lines and columns fit 32 bits, except at the limit.** Of a source that is not refused for its
size, all places that a scan passes fit, unless it has as many bytes as are allowed, is scanned to
its end, and consists of newlines only or is one line of one-byte characters. Then a line or a
column is one too large, and it is never more than that. -/
theorem passed_fits_iff (h : checkSize source.utf8ByteSize = .ok ()) :
    ((∀ p ∈ passed source, p.Fits) ↔ ¬ (Full source.toList ∧ ∃ ts, scan source = .ok ts))
    ∧ ∀ p ∈ passed source, p.line ≤ UInt32.size ∧ p.column ≤ UInt32.size := by
  have hle := le_of_checkSize h
  have hfront {a b : List Char} (hsource : source.toList = a ++ b) :
      byteLength a + byteLength b ≤ Cause.maxSourceBytes := by
    rw [← byteLength_append, ← hsource, byteLength_toList]
    exact hle
  rw [scan_of_size hle]
  refine ⟨⟨fun hfits ⟨hfull, hscan⟩ => ?_, fun hfull p hp => ?_⟩, fun p hp => ?_⟩
  · have hne : source.toList ≠ [] := by
      intro hnil
      have hbytes := hfull.1
      rw [hnil] at hbytes
      exact absurd hbytes (by decide)
    have hwhole := hfront (List.append_nil source.toList).symm
    exact (fits_ofPrefix_iff hwhole).1 (hfits _ (ofPrefix_mem_passed hne hscan)) hfull
  · obtain ⟨a, b, hsource, rfl, hscan⟩ := exists_front_of_mem_passed hp
    have hbytes := hfront hsource
    refine (fits_ofPrefix_iff (Nat.le_of_add_right_le hbytes)).2 fun hfull' => hfull ?_
    -- A front that fills the limit is the whole source.
    obtain rfl : b = [] := byteLength_eq_zero_iff.1 (by have := hfull'.1; omega)
    rw [List.append_nil] at hsource
    exact ⟨hsource ▸ hfull', hscan rfl⟩
  · obtain ⟨a, b, hsource, rfl, -⟩ := exists_front_of_mem_passed hp
    have hmarks : (ofPrefix a).Marks source := ⟨a, b, hsource, rfl⟩
    have hcounts := hmarks.line_column_le
    rw [size_eq]
    omega

theorem passed_fits_iff_at_two_lines :
    checkSize "x\n".utf8ByteSize = .ok () ∧ passed "x\n" = [⟨1, 1, 2⟩, ⟨2, 2, 1⟩]
      ∧ ∀ p ∈ passed "x\n", p.Fits := by
  have hsize : checkSize "x\n".utf8ByteSize = .ok () := by decide
  have hfull : ¬ Full "x\n".toList := fun h => absurd h.1 (by decide)
  exact ⟨hsize, by decide +kernel, (passed_fits_iff hsize).1.2 fun h => hfull h.1⟩

/-- Newlines up to the limit are let through, and the line behind them does not fit. -/
theorem exists_line_of_newlines :
    checkSize (String.ofList (List.replicate Cause.maxSourceBytes '\n')).utf8ByteSize = .ok ()
      ∧ ∃ p ∈ passed (.ofList (List.replicate Cause.maxSourceBytes '\n')),
        p.line = UInt32.size ∧ ¬ p.Fits := by
  -- The number stays a variable, so that nothing counts up to it.
  have hnewlines (n : Nat) (hn : n ≠ 0) :
      (String.ofList (List.replicate n '\n')).utf8ByteSize = n
        ∧ ∃ p ∈ passed (.ofList (List.replicate n '\n')), p.line = 1 + n := by
    have hone : ∀ c ∈ List.replicate n '\n', c.utf8Size = 1 := fun c hc =>
      (List.mem_replicate.1 hc).2 ▸ rfl
    have hbytes := byteLength_eq_length_iff.2 hone
    have hne : (String.ofList (List.replicate n '\n')).toList ≠ [] := by simpa using hn
    have hblanks : ∀ c ∈ List.replicate n '\n', Text.isBlank c = true := fun c hc =>
      (List.mem_replicate.1 hc).2 ▸ Text.isBlank_newline
    have hscan : ∃ ts,
        scanFrom [] .start (String.ofList (List.replicate n '\n')).toList = .ok ts := by
      have hskip := scanFrom_blanks hblanks .start []
      rw [List.append_nil, scanFrom_nil] at hskip
      exact ⟨_, by rw [String.toList_ofList, hskip]⟩
    refine ⟨?_, _, ofPrefix_mem_passed hne hscan, ?_⟩
    · rw [← byteLength_toList, String.toList_ofList, hbytes, List.length_replicate]
    · rw [String.toList_ofList]
      show 1 + (List.replicate n '\n').count '\n' = 1 + n
      rw [List.count_replicate_self]
  obtain ⟨hbytes, p, hp, hline⟩ := hnewlines Cause.maxSourceBytes (by decide)
  have hline : p.line = UInt32.size := hline
  exact ⟨by rw [hbytes, checkSize, if_pos (Nat.le_refl _)], p, hp, hline,
    fun hfits => absurd hfits.1 (by omega)⟩

end Token

end ImpFront
