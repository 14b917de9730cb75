import ImpFront.Proofs.Parse.KindsAlone
import ImpFront.Proofs.Parse.ProgramSpans
import ImpFront.Proofs.Syntax.Determined
/-!
# ImpFront.Proofs.Parse.EndOfInput

**The end of the input is the first end token, present or not.** A list of tokens that does not
close with an end token gets one, and nothing behind the first one is read. So tokens without an
end, with one, and with anything behind it are read alike: a parse has the same tokens ahead, and
the token after them says the same.

A failure is decided by what was taken and the refused token, which are the same in each case but
for the place of the end token. A success is decided by the tokens ahead: they have the signs of one
program only, and are laid out as one program only.
-/

namespace ImpFront

/-! ### Ends of lists -/

/-- A parse of the second list reads the tokens of the first, and then an end token. -/
def Token.EndsBehind (ts us : List Token) : Prop :=
  ∃ stop more, Stream.whole us = ts ++ stop :: more ∧ stop.kind = .eof ∧ stop.text = "EOF"

namespace Token.EndsBehind

variable {ts us : List Token}

/-- The end token that a list lacks says the same as one that is there. -/
theorem missing (hts : ∀ t ∈ ts, t.kind ≠ .eof) : EndsBehind ts ts :=
  ⟨_, [], Stream.whole_of_eof_free hts, rfl, rfl⟩

/-- Behind an end token may be anything. -/
theorem present {stop : Token} (hstop : stop.kind = .eof) (htext : stop.text = "EOF")
    (junk : List Token) : EndsBehind ts (ts ++ [stop] ++ junk) := by
  refine ⟨stop, junk ++ Stream.missingEnd (ts ++ [stop] ++ junk), ?_, hstop, htext⟩
  rw [Stream.whole]
  simp

/-- The tokens ahead are those of the list. -/
theorem ahead_eq (hts : ∀ t ∈ ts, t.kind ≠ .eof) (h : EndsBehind ts us) :
    (Stream.ofTokens us).ahead = ts := by
  obtain ⟨stop, more, hwhole, hstop, -⟩ := h
  have hall : ∀ t ∈ ts, decide (t.kind ≠ .eof) = true := fun t ht => decide_eq_true (hts t ht)
  show (Stream.whole us).takeWhile (·.kind ≠ .eof) = ts
  rw [hwhole, List.takeWhile_append_of_pos hall, List.takeWhile_cons_of_neg (by simp [hstop]),
    List.append_nil]

end Token.EndsBehind

/-- Tokens in front of the first end token are among those before it, or all of them. -/
theorem Token.split_before_end {read rest ts more : List Token} {t stop : Token}
    (hread : ∀ u ∈ read, u.kind ≠ .eof) (hstop : stop.kind = .eof)
    (h : read ++ t :: rest = ts ++ stop :: more) :
    (∃ behind, ts = read ++ t :: behind) ∨ (read = ts ∧ t = stop) := by
  rcases List.append_eq_append_iff.1 h with ⟨behind, rfl, htail⟩ | ⟨behind, rfl, htail⟩
  · cases behind with
    | nil => exact .inr ⟨(List.append_nil read).symm, (List.cons.inj htail).1⟩
    | cons u behind =>
      obtain rfl := (List.cons.inj htail).1
      exact .inl ⟨behind, rfl⟩
  · cases behind with
    | nil => exact .inr ⟨List.append_nil ts, (List.cons.inj htail).1.symm⟩
    | cons u behind =>
      -- The end token would have been taken.
      obtain rfl := (List.cons.inj htail).1
      exact absurd hstop (hread _ (by simp))

namespace Program

open Token (EndsBehind)

variable {settings : Settings} {ts us vs : List Token}

/-! ### Failures -/

/-- A parse that reads the same tokens up to an end token fails in the same place, for the same
cause. -/
theorem exists_error_of_endsBehind (hus : EndsBehind ts us) (hvs : EndsBehind ts vs)
    {e : Diagnostic} {s : State} (h : parseTokens settings us = .error e s) :
    ∃ d s', parseTokens settings vs = .error d s' ∧ e.cause = d.cause
      ∧ s.cursor us = s'.cursor vs ∧ (s.current.kind ≠ .eof → e.position = d.position) := by
  obtain ⟨read, more, agenda, r, hwhole, hcursor, hread, hanswer, rfl⟩ :=
    exists_refusal_of_error h
  obtain ⟨stop, behind, hwhole₁, hstop, htext⟩ := hus
  obtain ⟨stop', behind', hwhole₂, hstop', htext'⟩ := hvs
  rcases Token.split_before_end (Parse.ne_eof_of_run_eq_open hread) hstop
    (hwhole.symm.trans hwhole₁) with ⟨rest, rfl⟩ | ⟨rfl, hcurrent⟩
  · -- The refused token stands before the end, so it is the same one.
    rw [List.append_assoc, List.cons_append] at hwhole₂
    obtain ⟨s', hs', hcursor'⟩ := exists_error_of_refusal hwhole₂ hread hanswer
    exact ⟨_, s', hs', rfl, hcursor.trans hcursor'.symm, fun _ => rfl⟩
  · -- The end itself is refused; wherever it stands, it says the same.
    have hkind : stop'.kind = s.current.kind := by rw [hcurrent, hstop, hstop']
    obtain ⟨s', hs', hcursor'⟩ := exists_error_of_refusal hwhole₂ hread (hkind ▸ hanswer)
    refine ⟨_, s', hs', cause_eq_of_view r ?_, hcursor.trans hcursor'.symm, fun hne => ?_⟩
    · rw [hcurrent, Token.view, Token.view, hstop, hstop', htext, htext']
    · exact absurd (hcurrent ▸ hstop) hne

/-! ### Successes -/

/-- The tokens ahead are laid out as the program that is read. -/
theorem laid_of_parseTokens {p : Program} {s : State} (h : parseTokens settings us = .ok p s) :
    Laid (Stream.ofTokens us).ahead p.pieces := by
  rw [parseTokens_eq] at h
  obtain ⟨hfilled, hempty, -⟩ := Parse.filled_of_programAt h
  obtain ⟨tokens, htokens, hlaid⟩ := hfilled.exists_tokens
  rw [hempty, List.append_nil] at htokens
  exact htokens ▸ hlaid

/-- Programs that are read from the same tokens up to the end have the same parts. -/
theorem items_eq_of_ahead_eq (h : (Stream.ofTokens us).ahead = (Stream.ofTokens vs).ahead)
    {p q : Program} {s s' : State} (hp : parseTokens settings us = .ok p s)
    (hq : parseTokens settings vs = .ok q s') : p.items = q.items := by
  obtain ⟨hsigns, hfits, -⟩ := of_parseTokens hp
  obtain ⟨hsigns', hfits', -⟩ := of_parseTokens hq
  have hahead : (State.ofTokens us).signs = (State.ofTokens vs).signs :=
    congrArg (List.map Token.sign) h
  have herase := erase_eq_of_signs hsigns.symm (hahead.trans hsigns'.symm) hfits hfits'
  exact items_eq_of_laid (h ▸ laid_of_parseTokens hp) (laid_of_parseTokens hq) herase

/-! ### Three parses -/

/-- **The end of the input is where the first end token is, present or not.** Take tokens without
an end token: as they are, with an end token behind them, or with an end token and any tokens behind
that. All of these are read or none is. Those that are read have the same parts, spans included.
Those that are not fail at the same token for the same cause, and in the same position unless it is
the end token. -/
theorem parseTokens_end (settings : Settings) (ts : List Token) (hts : ∀ t ∈ ts, t.kind ≠ .eof)
    (stop : Token) (hstop : stop.kind = .eof) (htext : stop.text = "EOF") (junk : List Token)
    (hus : us ∈ [ts, ts ++ [stop], ts ++ [stop] ++ junk])
    (hvs : vs ∈ [ts, ts ++ [stop], ts ++ [stop] ++ junk]) :
    match parseTokens settings us, parseTokens settings vs with
    | .ok p _, .ok q _ => p.items = q.items
    | .error d s, .error e s' =>
      d.cause = e.cause ∧ s.cursor us = s'.cursor vs
        ∧ (s.current.kind ≠ .eof → d.position = e.position)
    | _, _ => False := by
  have hends : ∀ ws ∈ [ts, ts ++ [stop], ts ++ [stop] ++ junk], EndsBehind ts ws := by
    have hpresent : EndsBehind ts (ts ++ [stop] ++ []) := .present hstop htext []
    rw [List.append_nil] at hpresent
    simp only [List.forall_mem_cons]
    exact ⟨.missing hts, hpresent, .present hstop htext junk, by simp⟩
  have hbehind := hends us hus
  have hbehind' := hends vs hvs
  cases hp : parseTokens settings us with
  | error d s =>
    obtain ⟨e, s', he, hsame⟩ := exists_error_of_endsBehind hbehind hbehind' hp
    rw [he]
    exact hsame
  | ok p s =>
    cases hq : parseTokens settings vs with
    | ok q s' =>
      exact items_eq_of_ahead_eq ((hbehind.ahead_eq hts).trans (hbehind'.ahead_eq hts).symm) hp hq
    | error e s' =>
      obtain ⟨d, s'', hfails, -⟩ := exists_error_of_endsBehind hbehind' hbehind hq
      rw [hp] at hfails
      cases hfails

/-- A statement without an end token, and with one that has a parenthesis behind it. -/
theorem parseTokens_end_at_return : ∃ p q s s',
    parseTokens ⟨8⟩ [⟨.returnWord, "return", default⟩, ⟨.semicolon, ";", default⟩] = .ok p s
      ∧ parseTokens ⟨8⟩ ([⟨.returnWord, "return", default⟩, ⟨.semicolon, ";", default⟩]
        ++ [.endAt ⟨9, 1, 10⟩] ++ [⟨.closeParen, ")", default⟩]) = .ok q s'
      ∧ p.items = q.items ∧ p.span ≠ q.span := by
  have hp : ofTokens ⟨8⟩ [⟨.returnWord, "return", default⟩, ⟨.semicolon, ";", default⟩]
      = .ok ⟨[.statement (.ret none default)], default⟩ := by
    decide +kernel
  have hq : ofTokens ⟨8⟩ ([⟨.returnWord, "return", default⟩, ⟨.semicolon, ";", default⟩]
        ++ [.endAt ⟨9, 1, 10⟩] ++ [⟨.closeParen, ")", default⟩])
      = .ok ⟨[.statement (.ret none default)], ⟨default, ⟨9, 1, 10⟩⟩⟩ := by
    decide +kernel
  obtain ⟨s, hs⟩ := ofTokens_eq_ok_iff.1 hp
  obtain ⟨s', hs'⟩ := ofTokens_eq_ok_iff.1 hq
  have hsame := parseTokens_end ⟨8⟩
    [⟨.returnWord, "return", default⟩, ⟨.semicolon, ";", default⟩] (by decide)
    (.endAt ⟨9, 1, 10⟩) rfl rfl [⟨.closeParen, ")", default⟩] (List.mem_cons_self ..)
    (List.mem_cons_of_mem _ (List.mem_cons_of_mem _ (List.mem_cons_self ..)))
  rw [hs, hs'] at hsame
  exact ⟨_, _, s, s', hs, hs', hsame, by decide⟩

end Program

end ImpFront
