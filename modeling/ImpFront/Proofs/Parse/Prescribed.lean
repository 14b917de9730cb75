import ImpFront.Proofs.Parse.Grammar
import ImpFront.Proofs.Parse.ProductionsKeep
/-!
# ImpFront.Proofs.Parse.Prescribed

**The tree that the powers prescribe**, for readings that start anywhere and with any
minimum: inside an operand as well as where a whole expression stands.

Whoever reads with the minimum `least` gets the one tree of the tokens taken that
`Expr.fits least` allows, and stops in front of an operator that is not above the minimum and
leaves that tree whole. Conversely a tree that is allowed is read from its own tokens, before
anything that neither extends it nor makes more of a name at its end.

Both directions are known for the signs of a state (`readsExprs_exprAt`, `builds`). What is added
here are the tokens themselves, the levels that were open before, and that there is one tree only:
two trees of the same signs are both read from them, so they are the same but for spans.
-/

namespace ImpFront

/-- The signs of an expression that ends in a bare name end in a name. -/
theorem Expr.getLast?_signs_of_endsInName : (e : Expr) → e.endsInName = true →
    e.signs.getLast?.map (·.kind) = some .identifier
  | symbol name _, _ => rfl
  | not operand _, h => by
    rw [signs, List.getLast?_cons_of_ne_nil operand.signs_ne_nil]
    exact getLast?_signs_of_endsInName operand h
  | assign target value _, h => by
    rw [signs, List.getLast?_cons_cons, List.getLast?_cons_of_ne_nil value.signs_ne_nil]
    exact getLast?_signs_of_endsInName value h
  | binary op left right _, h => by
    have hright := getLast?_signs_of_endsInName right h
    rw [signs, List.getLast?_append, List.getLast?_cons_of_ne_nil right.signs_ne_nil, Option.map_or,
      hright, Option.some_or]

namespace Parse

variable {settings : Settings} {least : Power} {s s' : State} {e : Expr} {rest : List Sign}

/-- No operator of more than the power comes first, said of the operators one by one. -/
theorem weaker_iff {bound : Power} :
    Weaker bound rest ↔ ∀ op : BinaryOp, Sign.headKind rest = op.kind → op.power ≤ bound := by
  constructor
  · intro h op hop
    exact h op.power (by rw [hop, Rules.power?_kind])
  · intro h p hp
    obtain ⟨op, hop, rfl⟩ := Rules.power?_eq_some_iff.1 hp
    exact h op hop

/-- An expression that the powers allow is read with the levels it needs, in front of anything that
leaves it whole. -/
theorem exists_expr (hfits : e.fits least = true) (hs : s.signs = e.signs ++ rest)
    (hneed : s.depth + e.need ≤ settings.maxDepth) (hweaker : Weaker (min least e.edge) rest)
    (hname : e.endsInName = true → Sign.headKind rest ≠ .openParen ∧ Sign.headKind rest ≠ .assign) :
    ∃ e' s', expr (.standard settings) least s = .ok e' s' ∧ e'.erase = e.erase
      ∧ s'.signs = rest := by
  have hends : Ends e rest := ⟨hweaker.mono (Nat.min_le_right _ _), hname⟩
  have hlevels : e.need ≤ settings.maxDepth - s.depth := by omega
  exact yields_exprAt_of_builds hlevels (hweaker.mono (Nat.min_le_left _ _))
    (fun m hm => builds settings e hfits hm hends) s hs

/-- At the end of the input, nothing makes more of an expression. -/
theorem exists_expr_at_end (hfits : e.fits least = true) (hs : s.signs = e.signs)
    (hneed : s.depth + e.need ≤ settings.maxDepth) :
    ∃ e' s', expr (.standard settings) least s = .ok e' s' ∧ e'.erase = e.erase
      ∧ s'.signs = [] := by
  have hweaker : Weaker (min least e.edge) [] := fun p hp => by cases hp
  exact exists_expr hfits (hs.trans (List.append_nil _).symm) hneed hweaker fun _ => by decide

/-- Expressions that the powers allow and that stand for the same tokens differ in spans at most. -/
theorem erase_eq_of_signs {tokens : List Token} {e₁ e₂ : Expr} (hopen : ∀ t ∈ tokens, t.kind ≠ .eof)
    (hsigns₁ : tokens.map Token.sign = e₁.signs) (hsigns₂ : tokens.map Token.sign = e₂.signs)
    (hfits₁ : e₁.fits least = true) (hfits₂ : e₂.fits least = true) : e₁.erase = e₂.erase := by
  -- Both are what is read from the tokens alone, with a limit that allows both.
  have hfound {e : Expr} (hsigns : tokens.map Token.sign = e.signs) (hfits : e.fits least = true)
      (hneed : e.need ≤ max e₁.need e₂.need) : ∃ e' s',
      expr (.standard ⟨max e₁.need e₂.need⟩) least (.ofTokens tokens) = .ok e' s'
        ∧ e'.erase = e.erase := by
    have hahead : (State.ofTokens tokens).signs = e.signs :=
      (Program.signs_ofTokens_of_eof_free hopen).trans hsigns
    have hlevels : (State.ofTokens tokens).depth + e.need
        ≤ Settings.maxDepth ⟨max e₁.need e₂.need⟩ := by
      rw [show (State.ofTokens tokens).depth = 0 from rfl, Nat.zero_add]
      exact hneed
    obtain ⟨e', s', he', herase, -⟩ := exists_expr_at_end hfits hahead hlevels
    exact ⟨e', s', he', herase⟩
  obtain ⟨e', s', he', herase⟩ := hfound hsigns₁ hfits₁ (Nat.le_max_left _ _)
  obtain ⟨e'', s'', he'', herase'⟩ := hfound hsigns₂ hfits₂ (Nat.le_max_right _ _)
  rw [he'] at he''
  cases he''
  exact herase.symm.trans herase'

/-- **Reading by precedence builds the tree that the powers prescribe**, with any minimum, from any
state. If an expression is returned, then it stands for exactly the tokens that were taken, it is
one that the powers allow and the only one for these tokens, the levels sufficed for it and were
given back, and an operator that comes next is not above the minimum or would not extend it.
Conversely each expression that the powers allow is returned, but for its spans, where its signs
come next, the levels suffice for it, no operator behind it extends it and, if a bare name is the
last of its signs, neither a parenthesis nor an assignment follows; and no more is read. -/
theorem expr_prescribed (settings : Settings) (least : Power) (s : State) :
    (∀ e s', expr (.standard settings) least s = .ok e s' →
      (∃ read, s.stream.Taken read s'.stream ∧ read.map Token.sign = e.signs)
      ∧ e.fits least = true
      ∧ (∀ e₁ : Expr, e₁.fits least = true → e₁.signs = e.signs → e₁.erase = e.erase)
      ∧ s.depth + e.need ≤ settings.maxDepth ∧ s'.depth = s.depth
      ∧ ∀ op : BinaryOp, s'.current.kind = op.kind → op.power ≤ min least e.edge)
    ∧ ∀ (e : Expr) (rest : List Sign), e.fits least = true → s.signs = e.signs ++ rest →
      s.depth + e.need ≤ settings.maxDepth →
      (∀ op : BinaryOp, Sign.headKind rest = op.kind → op.power ≤ min least e.edge) →
      (e.signs.getLast?.map (·.kind) = some .identifier →
        Sign.headKind rest ≠ .openParen ∧ Sign.headKind rest ≠ .assign) →
      ∃ e' s', expr (.standard settings) least s = .ok e' s' ∧ e'.erase = e.erase
        ∧ s'.signs = rest := by
  refine ⟨fun e s' h => ?_, fun e rest hfits hs hneed hop hname =>
    exists_expr hfits hs hneed (weaker_iff.2 hop) fun hends =>
      hname (e.getLast?_signs_of_endsInName hends)⟩
  have hread := readsExprs_exprAt settings _ _ _ _ _ h
  have hkept := keepsExprs_exprAt (.standard settings) (s.depth + (settings.maxDepth - s.depth))
    (settings.maxDepth - s.depth) least s (Nat.le_refl _)
  change Kept _ s (expr (.standard settings) least s) at hkept
  rw [h] at hkept
  obtain ⟨read, htaken⟩ := hkept.exists_taken
  have hopen : ∀ t ∈ read, t.kind ≠ .eof := fun t ht =>
    s.stream.ahead_ne_eof t (htaken.ahead_eq ▸ List.mem_append_left _ ht)
  have hsigns : read.map Token.sign = e.signs := by
    have hboth := hread.signs_eq
    rw [State.signs, htaken.ahead_eq, List.map_append] at hboth
    exact List.append_cancel_right hboth
  have hneed : s.depth + e.need ≤ settings.maxDepth := by
    have hle : e.need ≤ settings.maxDepth - s.depth := hread.need_le
    have hpos : 1 ≤ e.need := Nat.le_add_right 1 _
    omega
  refine ⟨⟨read, htaken, hsigns⟩, hread.fits, fun e₁ hfits₁ hsigns₁ => ?_, hneed,
    hkept.depth_eq e s' rfl, fun op hop => ?_⟩
  · exact erase_eq_of_signs hopen (hsigns.trans hsigns₁.symm) hsigns hfits₁ hread.fits
  · exact weaker_iff.1 hread.weaker op (s'.kind_current.symm.trans hop)

/-- As the operand of a negation, `a == b && c` is read up to the conjunction. -/
theorem expr_prescribed_at_conjunction :
    ∃ e s', expr (.standard ⟨2⟩) .notOperand (.ofTokens [⟨.identifier, "a", default⟩,
        ⟨.equals, "==", default⟩, ⟨.identifier, "b", default⟩, ⟨.and, "&&", default⟩,
        ⟨.identifier, "c", default⟩]) = .ok e s'
      ∧ e.erase = .binary .equals (.symbol "a" default) (.symbol "b" default) default
      ∧ s'.signs = [.fixed .and, .name "c"] :=
  (expr_prescribed ⟨2⟩ .notOperand _).2
    (.binary .equals (.symbol "a" default) (.symbol "b" default) default) [.fixed .and, .name "c"]
    (by decide) (by decide) (by decide) (fun op => by cases op <;> decide) (fun _ => by decide)

end Parse

end ImpFront
