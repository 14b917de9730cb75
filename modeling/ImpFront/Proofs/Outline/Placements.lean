import ImpFront.Proofs.Outline.Displaced
import ImpFront.Proofs.Parse.KindsAlone
/-!
# ImpFront.Proofs.Outline.Placements

**Outlines of the same tokens in other places.** The summary of a program depends on places through
lines alone (`Program.summary_erase`). So do outlines where opening braces start at different
places; where they do not, the entries for `else` may be elsewhere, and nothing else differs
(`Program.outline_upToElse_of_tokens`).
-/

namespace ImpFront

/-! ### Comparing outlines -/

namespace FunctionOutline.UpToElse

variable {f g k : FunctionOutline}

theorem symm (h : f.UpToElse g) : g.UpToElse f := by
  refine ⟨?_, h.openers.symm, h.perm.symm⟩
  rw [← h.rest]

theorem trans (h : f.UpToElse g) (h' : g.UpToElse k) : f.UpToElse k := by
  refine ⟨?_, h.openers.trans h'.openers, h.perm.trans h'.perm⟩
  rw [← h'.rest, ← h.rest]

theorem unplaced (h : f.UpToElse g) : f.unplaced.UpToElse g.unplaced := by
  refine ⟨?_, ?_, h.perm.map _⟩
  · rw [← h.rest]
    rfl
  · have hopeners (controls : List Control) : Control.openers (controls.map Control.unplaced)
        = (Control.openers controls).map Control.unplaced := List.filter_map ..
    exact (hopeners _).trans ((congrArg _ h.openers).trans (hopeners _).symm)

end FunctionOutline.UpToElse

namespace Outline.UpToElse

variable {o o' o'' : Outline}

theorem symm (h : o.UpToElse o') : o'.UpToElse o :=
  ⟨h.globals.symm, (h.functions.flip).imp fun _ _ h => h.symm⟩

theorem trans (h : o.UpToElse o') (h' : o'.UpToElse o'') : o.UpToElse o'' := by
  obtain ⟨globals, functions⟩ := o
  obtain ⟨globals', functions'⟩ := o'
  obtain ⟨globals'', functions''⟩ := o''
  obtain ⟨rfl, hfunctions⟩ := h
  obtain ⟨rfl, hfunctions'⟩ := h'
  refine ⟨rfl, ?_⟩
  dsimp only at hfunctions hfunctions' ⊢
  induction hfunctions generalizing functions'' with
  | nil => exact hfunctions'
  | cons hf _ ih =>
    cases hfunctions' with
    | cons hf' hrest => exact .cons (hf.trans hf') (ih _ hrest)

theorem unplaced (h : o.UpToElse o') : o.unplaced.UpToElse o'.unplaced :=
  ⟨h.globals, List.forall₂_map_left_iff.2 (List.forall₂_map_right_iff.2
    (h.functions.imp fun _ _ h => h.unplaced))⟩

end Outline.UpToElse

theorem Outline.sorts_unplaced (o : Outline) :
    o.unplaced.functions.map (fun f => f.controls.map Control.sort)
      = o.functions.map fun f => f.controls.map Control.sort := by
  simp [unplaced, FunctionOutline.unplaced, Control.unplaced, Function.comp_def]

/-! ### Summaries without spans -/

@[simp] theorem Block.span_erase (b : Block) : b.erase.span = default := by
  obtain ⟨body, span⟩ := b
  rfl

mutual

theorem Statement.controls_erase : (st : Statement) →
    st.erase.controls = st.controls.map Control.unplaced
  | .ifElse condition body none span => by
    rw [Statement.erase, Statement.controls, Statement.controls, condition.text_erase,
      body.controls_erase]
    rfl
  | .ifElse condition body (some otherwise) span => by
    rw [Statement.erase, Statement.controls, Statement.controls, condition.text_erase,
      body.controls_erase, otherwise.controls_erase, otherwise.span_erase, List.map_append]
    rfl
  | .forLoop _ condition _ body span => by
    rw [Statement.erase, Statement.controls, Statement.controls, condition.text_erase,
      body.controls_erase]
    rfl
  | .whileLoop condition body span => by
    rw [Statement.erase, Statement.controls, Statement.controls, condition.text_erase,
      body.controls_erase]
    rfl
  | .declare _ | .update _ | .ret .. | .call .. => rfl

theorem Block.controls_erase : (b : Block) → b.erase.controls = b.controls.map Control.unplaced
  | ⟨body, _⟩ => Statement.controlsList_erase body

theorem Statement.controlsList_erase : (body : List Statement) →
    Statement.controlsList (Statement.eraseList body)
      = (Statement.controlsList body).map Control.unplaced
  | [] => rfl
  | st :: rest => by
    rw [Statement.eraseList, Statement.controlsList, Statement.controlsList, st.controls_erase,
      Statement.controlsList_erase rest, List.map_append]

end

namespace Node

/-- Variables and calls are read off the nodes of a tree, and spans are not looked at. -/
theorem filterMap_preorder_erase {α : Type} {f : Node → Option α}
    (hf : ∀ n : Node, f n.erase = f n) (n : Node) :
    n.erase.preorder.filterMap f = n.preorder.filterMap f := by
  rw [preorder_erase, List.filterMap_map]
  exact congrArg (List.filterMap · n.preorder) (funext hf)

theorem declared?_erase (n : Node) : n.erase.declared? = n.declared? := by
  cases n with
  | statement st =>
    cases st with
    | declare d =>
      obtain ⟨type, name, value, span⟩ := d
      cases value <;> rfl
    | ifElse condition body otherwise span => cases otherwise <;> rfl
    | _ => rfl
  | _ => rfl

theorem callee?_erase (n : Node) : n.erase.callee? = n.callee? := by
  cases n with
  | expr e => cases e <;> rfl
  | _ => rfl

theorem declared_erase {n : Node} (hn : n.isInner = true) : n.erase.declared = n.declared := by
  have herase : n.erase.isInner = true := by cases n <;> first | rfl | cases hn
  rw [declared_eq_preorder herase, declared_eq_preorder hn,
    filterMap_preorder_erase declared?_erase]

theorem callees_erase {n : Node} (hn : n.isInner = true) : n.erase.callees = n.callees := by
  have herase : n.erase.isInner = true := by cases n <;> first | rfl | cases hn
  rw [callees_eq_preorder herase, callees_eq_preorder hn, filterMap_preorder_erase callee?_erase]

end Node

theorem Function.summary_erase (f : Function) : f.erase.summary = f.summary.unplaced := by
  have hparameters : (f.parameters.map Parameter.erase).map Variable.ofParameter
      = f.parameters.map Variable.ofParameter := by
    rw [List.map_map]
    rfl
  have hlocals : f.body.erase.declared = f.body.declared :=
    Node.declared_erase (n := .block f.body) rfl
  have hcallees : f.body.erase.callees = f.body.callees :=
    Node.callees_erase (n := .block f.body) rfl
  simp only [summary, erase, FunctionOutline.unplaced, hparameters, hlocals, hcallees,
    f.body.controls_erase]

namespace Item

theorem declared_erase (item : Item) : item.erase.declared = item.declared := by
  cases item with
  | global d =>
    obtain ⟨type, name, value, span⟩ := d
    cases value <;> rfl
  | function f => rfl
  | statement st => exact Node.declared_erase (n := .statement st) rfl

theorem function?_erase (item : Item) :
    item.erase.function? = item.function?.map Function.erase := by
  cases item <;> rfl

end Item

namespace Program

/-- **A summary depends on places through lines alone.** -/
theorem summary_erase (p : Program) : p.erase.summary = p.summary.unplaced := by
  have hglobals : (p.items.map Item.erase).flatMap Item.declared
      = p.items.flatMap Item.declared := by
    rw [List.flatMap_map]
    exact List.flatMap_congr fun item _ => item.declared_erase
  have hfunctions : ((p.items.map Item.erase).filterMap Item.function?).map Function.summary
      = ((p.items.filterMap Item.function?).map Function.summary).map FunctionOutline.unplaced := by
    have hitem : Item.function? ∘ Item.erase = fun item => item.function?.map Function.erase :=
      funext fun item => item.function?_erase
    rw [List.filterMap_map, hitem, ← List.map_filterMap, List.map_map, List.map_map]
    exact List.map_congr_left fun f _ => f.summary_erase
  simp only [summary, functions, erase, Outline.unplaced, hglobals, hfunctions]

variable {settings settings' : Settings} {ts us : List Token} {p q : Program}

/-- Programs that are read from the same tokens have the same summary but for lines. -/
theorem unplaced_summary_eq (hkinds : ts.map Token.kind = us.map Token.kind)
    (htexts : ts.map Token.text = us.map Token.text) (hp : ofTokens settings ts = .ok p)
    (hq : ofTokens settings' us = .ok q) : p.summary.unplaced = q.summary.unplaced := by
  have hviews : ts.map (Token.view id) = us.map (Token.view id) := by
    have hzip := congrArg₂ List.zip hkinds htexts
    rwa [List.zip_map', List.zip_map'] at hzip
  obtain ⟨s, hs⟩ := ofTokens_eq_ok_iff.1 hp
  obtain ⟨s', hs'⟩ := ofTokens_eq_ok_iff.1 hq
  rw [← summary_erase, ← summary_erase, erase_eq_of_view hviews hs hs']

/-- Where opening braces start at different places, the outline of a program is its summary. -/
theorem outline_eq_of_braces (hp : ofTokens settings ts = .ok p) (h : (Token.braces ts).Nodup) :
    p.outline = p.summary :=
  congrArg OutlineState.done (foldl_events_of_apart (apart_of_ofTokens hp h))

/-- **Outlines of the same tokens in other places.** Let two lists of tokens have the same kinds and
texts, whatever their places, and let both be read. Then the two outlines agree in everything but
lines and the places of the entries for `else` among the control structures: globals, functions,
parameters, locals and recursion are the same, the other control structures come in the same order,
and there are as many entries for `else`. Where the opening braces of each list start at different
places, as they do in a source, the entries for `else` have the same places too. -/
theorem outline_upToElse_of_tokens (hkinds : ts.map Token.kind = us.map Token.kind)
    (htexts : ts.map Token.text = us.map Token.text) (hp : ofTokens settings ts = .ok p)
    (hq : ofTokens settings' us = .ok q) :
    p.outline.unplaced.UpToElse q.outline.unplaced
    ∧ ((Token.braces ts).Nodup → (Token.braces us).Nodup →
      p.outline.unplaced = q.outline.unplaced) := by
  have hsummary := unplaced_summary_eq hkinds htexts hp hq
  constructor
  · have hleft := p.outline_upToElse.unplaced
    rw [hsummary] at hleft
    exact hleft.trans q.outline_upToElse.unplaced.symm
  · intro hts hus
    rw [outline_eq_of_braces hp hts, outline_eq_of_braces hq hus, hsummary]

theorem outline_upToElse_of_tokens_at_layouts : ∃ ts us p q,
    Token.scan "void f() \x7b if (a) \x7b\x7d else \x7b\x7d \x7d" = .ok ts
      ∧ Token.scan "void f()\n\x7b if (a) \x7b\x7d\nelse \x7b\x7d \x7d" = .ok us
      ∧ ts.map Token.kind = us.map Token.kind ∧ ts.map Token.text = us.map Token.text
      ∧ ofTokens ⟨8⟩ ts = .ok p ∧ ofTokens ⟨9⟩ us = .ok q
      ∧ p.outline.functions.map (·.controls.map Control.line) = [[1, 1]]
      ∧ q.outline.functions.map (·.controls.map Control.line) = [[2, 3]]
      ∧ p.outline.unplaced.UpToElse q.outline.unplaced
      ∧ p.outline.unplaced = q.outline.unplaced := by
  have hp : (ofSource ⟨8⟩ "void f() \x7b if (a) \x7b\x7d else \x7b\x7d \x7d").map
      (fun p => p.outline.functions.map (·.controls.map Control.line)) = .ok [[1, 1]] := by
    decide +kernel
  have hq : (ofSource ⟨9⟩ "void f()\n\x7b if (a) \x7b\x7d\nelse \x7b\x7d \x7d").map
      (fun q => q.outline.functions.map (·.controls.map Control.line)) = .ok [[2, 3]] := by
    decide +kernel
  have hviews : (Token.scan "void f() \x7b if (a) \x7b\x7d else \x7b\x7d \x7d").map
        (fun ts => (ts.map Token.kind, ts.map Token.text))
      = (Token.scan "void f()\n\x7b if (a) \x7b\x7d\nelse \x7b\x7d \x7d").map
        (fun us => (us.map Token.kind, us.map Token.text)) := by
    decide +kernel
  obtain ⟨p, hp, hlines⟩ := exists_of_map_ofSource hp
  obtain ⟨q, hq, hlines'⟩ := exists_of_map_ofSource hq
  obtain ⟨ts, hts, hp⟩ := ofSource_eq_ok_iff.1 hp
  obtain ⟨us, hus, hq⟩ := ofSource_eq_ok_iff.1 hq
  rw [hts, hus] at hviews
  obtain ⟨hkinds, htexts⟩ := Prod.mk.inj (Except.ok.inj hviews)
  obtain ⟨hsimilar, hequal⟩ := outline_upToElse_of_tokens hkinds htexts hp hq
  exact ⟨ts, us, p, q, hts, hus, hkinds, htexts, hp, hq, hlines, hlines', hsimilar,
    hequal (Token.nodup_braces_of_scan hts) (Token.nodup_braces_of_scan hus)⟩

/-- Where all tokens stand at one place, the first block of an `if` is taken for the one behind its
`else`, so the order of the control structures is not that of the tokens. -/
theorem exists_displaced_else : ∃ ts us p q,
    ts.map Token.kind = us.map Token.kind ∧ ts.map Token.text = us.map Token.text
      ∧ ofTokens ⟨8⟩ ts = .ok p ∧ ofTokens ⟨8⟩ us = .ok q
      ∧ p.outline.functions.map (fun f => f.controls.map Control.sort)
        = [[.ifThen, .whileLoop, .otherwise]]
      ∧ q.outline.functions.map (fun f => f.controls.map Control.sort)
        = [[.ifThen, .otherwise, .whileLoop]]
      ∧ p.outline.unplaced ≠ q.outline.unplaced := by
  have hplaced : (ofSource ⟨8⟩
        "void f() \x7b if (a) \x7b while (b) \x7b\x7d \x7d else \x7b\x7d \x7d").map
      (fun p => p.outline.functions.map fun f => f.controls.map Control.sort)
      = .ok [[.ifThen, .whileLoop, .otherwise]] := by
    decide +kernel
  have hbare : ((Token.scan
        "void f() \x7b if (a) \x7b while (b) \x7b\x7d \x7d else \x7b\x7d \x7d").bind fun ts =>
      ofTokens ⟨8⟩ (ts.map fun t => { t with span := ⟨.start, .start⟩ })).map
      (fun q => q.outline.functions.map fun f => f.controls.map Control.sort)
      = .ok [[.ifThen, .otherwise, .whileLoop]] := by
    decide +kernel
  obtain ⟨p, hp, hsorts⟩ := exists_of_map_ofSource hplaced
  obtain ⟨ts, hts, hp⟩ := ofSource_eq_ok_iff.1 hp
  obtain ⟨q, hq, hsorts'⟩ := exists_of_map_eq_ok hbare
  rw [hts, Except.bind] at hq
  refine ⟨ts, _, p, q, ?_, ?_, hp, hq, hsorts, hsorts', fun heq => ?_⟩
  · rw [List.map_map]
    rfl
  · rw [List.map_map]
    rfl
  · rw [← Outline.sorts_unplaced] at hsorts hsorts'
    rw [heq, hsorts'] at hsorts
    cases hsorts

end Program

end ImpFront
