import ImpFront.Proofs.Parse.ErrorPlace
import ImpFront.Proofs.Print.RoundTrip
import ImpFront.Proofs.Syntax.Renamed
/-!
# ImpFront.Proofs.Parse.KindsAlone

**A parse is steered by kinds alone.** Two parses of tokens with the same kinds go hand in
hand: they take the same number of tokens, refuse for the same reason, or read trees of one
skeleton. What the texts of the tokens say is copied into the result and never looked at.

The two parses are compared through a *view* of the texts, any function on them. What the
tokens show in that view decides what the results show in it: with the view that shows
nothing, kinds decide the skeleton; with the one that shows all, kinds and texts decide the
tree, whatever the layout.
-/

namespace ImpFront

/-- What is seen of a token when its text is seen through a function. -/
def Token.view (f : String → String) (t : Token) : Kind × String := (t.kind, f t.text)

variable {f : String → String} {settings : Settings} {ts us : List Token}

theorem Token.map_kind_of_view (h : ts.map (view f) = us.map (view f)) :
    ts.map kind = us.map kind := by
  have hkinds := congrArg (List.map Prod.fst) h
  rwa [List.map_map, List.map_map] at hkinds

/-- Tokens with the same views are closed alike. -/
theorem Stream.map_view_whole (h : ts.map (Token.view f) = us.map (Token.view f)) :
    (whole ts).map (Token.view f) = (whole us).map (Token.view f) := by
  have hclosed : closed ts = closed us := by
    rw [closed, closed, ← List.getLast?_map, ← List.getLast?_map, Token.map_kind_of_view h]
  rw [whole, whole, List.map_append, List.map_append, h, missingEnd, missingEnd, hclosed]
  split <;> rfl

/-! ### Agendas -/

/-- Tokens of the same kinds are taken alike. -/
theorem Parse.run_eq_open_of_kinds {agenda agenda' : List Demand} {read read' : List Token}
    (hkinds : read.map Token.kind = read'.map Token.kind)
    (h : run settings agenda read = .open agenda') : run settings agenda read' = .open agenda' := by
  induction read generalizing agenda read' with
  | nil =>
    obtain rfl := List.map_eq_nil_iff.1 hkinds.symm
    exact h
  | cons t read ih =>
    obtain ⟨u, more, rfl, hu, hmore⟩ := List.map_eq_cons_iff.1 hkinds.symm
    obtain ⟨agenda₁, htake, hrun⟩ := exists_take_of_run_eq_open h
    rw [← hu] at htake
    rw [run_of_take htake]
    exact ih hmore.symm hrun

namespace Program

open Parse (Refusal)

/-! ### Failures -/

/-- A parse of tokens that look the same fails where the first one does, for the same reason. -/
theorem exists_error_of_view (h : ts.map (Token.view f) = us.map (Token.view f)) {e : Diagnostic}
    {s : State} (he : parseTokens settings ts = .error e s) :
    ∃ (r : Refusal) (t : Token) (s' : State), parseTokens settings us = .error (r.diagnostic t) s'
      ∧ e = r.diagnostic s.current ∧ t.view f = s.current.view f ∧ s.cursor ts = s'.cursor us := by
  obtain ⟨read, more, agenda, r, hwhole, hcursor, hread, hanswer, rfl⟩ :=
    exists_refusal_of_error he
  have hviews := Stream.map_view_whole h
  rw [hwhole, List.map_append, List.map_cons] at hviews
  obtain ⟨read', tail, hwhole', hread', htail⟩ := List.map_eq_append_iff.1 hviews.symm
  obtain ⟨t, more', rfl, ht, -⟩ := List.map_eq_cons_iff.1 htail
  have hkind : t.kind = s.current.kind := congrArg Prod.fst ht
  obtain ⟨s', hs', hcursor'⟩ := exists_error_of_refusal hwhole'
    (Parse.run_eq_open_of_kinds (Token.map_kind_of_view hread').symm hread) (hkind ▸ hanswer)
  refine ⟨r, t, s', hs', rfl, ht, ?_⟩
  rw [hcursor, hcursor', ← List.length_map (Token.view f), ← hread', List.length_map]

theorem cause_eq_of_view (r : Refusal) {t u : Token} (h : t.view id = u.view id) :
    r.cause t = r.cause u := by
  obtain ⟨hkind, htext⟩ : t.kind = u.kind ∧ t.text = u.text := Prod.mk.inj h
  cases r <;> simp only [Refusal.cause, hkind, htext]

/-- The kinds of a refusal do not depend on the text of the token. -/
theorem cause_of_kind (r : Refusal) {t u : Token} (h : t.kind = u.kind) :
    (r.cause t).name = (r.cause u).name ∧ (r.cause t).found? = (r.cause u).found?
      ∧ (r.cause t).expectedKinds = (r.cause u).expectedKinds := by
  cases r <;> simp [Refusal.cause, Cause.name, Cause.found?, Cause.expectedKinds, h]

/-- Tokens that look the same are both read, or are refused at the same place for the same
reason. -/
theorem agree_of_view (settings : Settings) (h : ts.map (Token.view f) = us.map (Token.view f)) :
    (∃ p s q s', parseTokens settings ts = .ok p s ∧ parseTokens settings us = .ok q s') ∨
    ∃ (r : Refusal) (t u : Token) (s s' : State),
      parseTokens settings ts = .error (r.diagnostic t) s
        ∧ parseTokens settings us = .error (r.diagnostic u) s'
        ∧ t.view f = u.view f ∧ s.cursor ts = s'.cursor us := by
  cases hts : parseTokens settings ts with
  | error e s =>
    obtain ⟨r, u, s', hus, rfl, hview, hcursor⟩ := exists_error_of_view h hts
    exact .inr ⟨r, s.current, u, s, s', rfl, hus, hview.symm, hcursor⟩
  | ok p s =>
    cases hus : parseTokens settings us with
    | ok q s' => exact .inl ⟨p, s, q, s', rfl, rfl⟩
    | error e s' =>
      obtain ⟨r, u, s'', hfails, -⟩ := exists_error_of_view h.symm hus
      rw [hts] at hfails
      cases hfails

/-! ### Trees -/

/-- Programs that are read from tokens of the same kinds and texts differ in spans at most. -/
theorem erase_eq_of_view (h : ts.map (Token.view id) = us.map (Token.view id)) {p q : Program}
    {settings' : Settings} {s s' : State} (hp : parseTokens settings ts = .ok p s)
    (hq : parseTokens settings' us = .ok q s') : p.erase = q.erase := by
  obtain ⟨hsigns, hfits, -⟩ := of_parseTokens hp
  obtain ⟨hsigns', hfits', -⟩ := of_parseTokens hq
  have hsaid : ts.map Token.sign = us.map Token.sign := by
    have hplaced := congrArg (List.map fun said => (Token.mk said.1 said.2 default).sign) h
    rwa [List.map_map, List.map_map] at hplaced
  refine erase_eq_of_signs hsigns.symm ?_ hfits hfits'
  rw [hsigns', State.signs_ofTokens_congr hsaid]

theorem signs_ofTokens_rename (f : String → String) (tokens : List Token) :
    (State.ofTokens (tokens.map (Token.rename f))).signs
      = (State.ofTokens tokens).signs.map (Sign.rename f) := by
  rw [State.signs_ofTokens, State.signs_ofTokens, List.takeWhile_map, List.map_map, List.map_map]
  exact List.map_congr_left fun t _ => t.sign_rename f

/-- Programs that are read from tokens of the same kinds have the same skeleton. -/
theorem skeleton_eq_of_kinds (h : ts.map Token.kind = us.map Token.kind) {p q : Program}
    {s s' : State} (hp : parseTokens settings ts = .ok p s)
    (hq : parseTokens settings us = .ok q s') : p.skeleton = q.skeleton := by
  obtain ⟨hsigns, hfits, -⟩ := of_parseTokens hp
  obtain ⟨hsigns', hfits', -⟩ := of_parseTokens hq
  -- Without their texts, the two lists of tokens say the same, and both skeletons are readings.
  have hsaid : (ts.map (Token.rename fun _ => "")).map Token.sign
      = (us.map (Token.rename fun _ => "")).map Token.sign := by
    have hblank := congrArg (List.map fun kind => (Token.mk kind "" default).sign) h
    rw [List.map_map, List.map_map] at hblank ⊢
    exact hblank
  have hahead : (State.ofTokens (ts.map (Token.rename fun _ => ""))).signs
      = (p.rename fun _ => "").signs := by
    rw [signs_ofTokens_rename, signs_rename, hsigns]
  have hahead' : (State.ofTokens (ts.map (Token.rename fun _ => ""))).signs
      = (q.rename fun _ => "").signs := by
    rw [State.signs_ofTokens_congr hsaid, signs_ofTokens_rename, signs_rename, hsigns']
  exact erase_eq_of_signs hahead hahead' ((wellFormed_rename _ p).trans hfits)
    ((wellFormed_rename _ q).trans hfits')

/-! ### Two parses -/

/-- **Only kinds steer a parse.** Let two lists of tokens have the same kinds. Then both are read,
or both fail. What is read has the same constructors, operators, types, sides and numbers of parts
throughout; failures come behind the same number of tokens, with causes of the same name that name
and list the same kinds. In particular, sources whose tokens agree in kind and text have the same
trace or fail for the same cause. -/
theorem parseTokens_kinds (settings : Settings) {ts us : List Token}
    (h : ts.map Token.kind = us.map Token.kind) :
    (match parseTokens settings ts, parseTokens settings us with
      | .ok p _, .ok q _ => p.skeleton = q.skeleton
      | .error d s, .error e s' => s.cursor ts = s'.cursor us ∧ d.cause.name = e.cause.name
        ∧ d.cause.found? = e.cause.found? ∧ d.cause.expectedKinds = e.cause.expectedKinds
      | _, _ => False) ∧
    ∀ a b, Token.scan a = .ok ts → Token.scan b = .ok us →
      ts.map Token.text = us.map Token.text →
      match ofSource settings a, ofSource settings b with
      | .ok p, .ok q => p.trace = q.trace
      | .error d, .error e => d.cause = e.cause
      | _, _ => False := by
  constructor
  · have hviews : ts.map (Token.view fun _ => "") = us.map (Token.view fun _ => "") := by
      have hblank := congrArg (List.map fun kind => (kind, "")) h
      rwa [List.map_map, List.map_map] at hblank
    rcases agree_of_view settings hviews with
      ⟨p, s, q, s', hp, hq⟩ | ⟨r, t, u, s, s', hts, hus, hview, hcursor⟩
    · rw [hp, hq]
      exact skeleton_eq_of_kinds h hp hq
    · rw [hts, hus]
      exact ⟨hcursor, cause_of_kind r (congrArg Prod.fst hview)⟩
  · intro a b ha hb htexts
    have hviews : ts.map (Token.view id) = us.map (Token.view id) := by
      have hzip := congrArg₂ List.zip h htexts
      rwa [List.zip_map', List.zip_map'] at hzip
    have hsource {c : String} {tokens : List Token} (hc : Token.scan c = .ok tokens) :
        ofSource settings c = ofTokens settings tokens := by
      rw [ofSource, hc]
      rfl
    rw [hsource ha, hsource hb]
    rcases agree_of_view settings hviews with
      ⟨p, s, q, s', hp, hq⟩ | ⟨r, t, u, s, s', hts, hus, hview, -⟩
    · rw [ofTokens_eq_ok_iff.2 ⟨s, hp⟩, ofTokens_eq_ok_iff.2 ⟨s', hq⟩]
      exact trace_eq_of_erase_eq (erase_eq_of_view hviews hp hq)
    · rw [ofTokens_eq_error_iff.2 ⟨s, hts⟩, ofTokens_eq_error_iff.2 ⟨s', hus⟩]
      exact cause_eq_of_view r hview

theorem parseTokens_kinds_at_comment :
    (∃ p q, ofTokens ⟨8⟩ [⟨.identifier, "x", default⟩, ⟨.assign, "=", default⟩,
          ⟨.number, "1", default⟩, ⟨.semicolon, ";", default⟩] = .ok p
        ∧ ofTokens ⟨8⟩ [⟨.identifier, "y", default⟩, ⟨.assign, "=", default⟩,
          ⟨.number, "2.5", default⟩, ⟨.semicolon, ";", default⟩] = .ok q
        ∧ p.skeleton = q.skeleton ∧ p ≠ q)
    ∧ ∃ ts us d e, Token.scan "x;" = .ok ts ∧ Token.scan "x // why\n;" = .ok us
        ∧ ts.map Token.kind = us.map Token.kind ∧ ts.map Token.text = us.map Token.text
        ∧ ofSource ⟨8⟩ "x;" = .error d ∧ ofSource ⟨8⟩ "x // why\n;" = .error e
        ∧ d.cause = e.cause ∧ d.position ≠ e.position := by
  constructor
  · have hp : ofTokens ⟨8⟩ [⟨.identifier, "x", default⟩, ⟨.assign, "=", default⟩,
          ⟨.number, "1", default⟩, ⟨.semicolon, ";", default⟩]
        = .ok ⟨[.statement (.update (.assign "x" .assign (.number "1" default) default))],
          default⟩ := by
      decide +kernel
    have hq : ofTokens ⟨8⟩ [⟨.identifier, "y", default⟩, ⟨.assign, "=", default⟩,
          ⟨.number, "2.5", default⟩, ⟨.semicolon, ";", default⟩]
        = .ok ⟨[.statement (.update (.assign "y" .assign (.number "2.5" default) default))],
          default⟩ := by
      decide +kernel
    obtain ⟨s, hs⟩ := ofTokens_eq_ok_iff.1 hp
    obtain ⟨s', hs'⟩ := ofTokens_eq_ok_iff.1 hq
    have hagree {ts us : List Token} {p q : Program} (h : ts.map Token.kind = us.map Token.kind)
        (hts : parseTokens ⟨8⟩ ts = .ok p s) (hus : parseTokens ⟨8⟩ us = .ok q s') :
        p.skeleton = q.skeleton := by
      have hboth := (parseTokens_kinds ⟨8⟩ h).1
      rwa [hts, hus] at hboth
    exact ⟨_, _, hp, hq, hagree (by decide) hs hs', by decide +kernel⟩
  · have hts : Token.scan "x;" = .ok [⟨.identifier, "x", ⟨⟨0, 1, 1⟩, ⟨1, 1, 2⟩⟩⟩,
        ⟨.semicolon, ";", ⟨⟨1, 1, 2⟩, ⟨2, 1, 3⟩⟩⟩, .endAt ⟨2, 1, 3⟩] := by
      decide +kernel
    have hus : Token.scan "x // why\n;" = .ok [⟨.identifier, "x", ⟨⟨0, 1, 1⟩, ⟨1, 1, 2⟩⟩⟩,
        ⟨.semicolon, ";", ⟨⟨9, 2, 1⟩, ⟨10, 2, 2⟩⟩⟩, .endAt ⟨10, 2, 2⟩] := by
      decide +kernel
    have hd : (ofSource ⟨8⟩ "x;").mapError Diagnostic.position = .error ⟨1, 1, 2⟩ := by
      decide +kernel
    have he : (ofSource ⟨8⟩ "x // why\n;").mapError Diagnostic.position = .error ⟨9, 2, 1⟩ := by
      decide +kernel
    have hagree := (parseTokens_kinds ⟨8⟩ (by decide)).2 _ _ hts hus (by decide)
    cases ha : ofSource ⟨8⟩ "x;" with
    | ok p => rw [ha] at hd; cases hd
    | error d =>
      cases hb : ofSource ⟨8⟩ "x // why\n;" with
      | ok q => rw [hb] at he; cases he
      | error e =>
        rw [ha, hb] at hagree
        rw [ha] at hd
        rw [hb] at he
        refine ⟨_, _, d, e, hts, hus, by decide, by decide, rfl, rfl, hagree, ?_⟩
        rw [Except.error.inj hd, Except.error.inj he]
        decide

end Program

end ImpFront
