import ImpFront.Proofs.Parse.Grammar
import ImpFront.Proofs.Syntax.Labels
/-!
# ImpFront.Proofs.Parse.Trace

**A trace identifies a program up to spans.** The events of a walk say when a node is entered and
when it is left, so they bracket the parts of each node, and a list of parts is known from its
events with the exit behind them. A global is walked like any other declaration; which
declarations are the globals is known because a program that was read begins with all it has.
-/

namespace ImpFront

namespace Node

theorem describe_enter_ne_exit (n m : Node) :
    (Event.enter n).describe ≠ (Event.exit m).describe := by
  intro h
  have hlist := congrArg String.toList h
  simp [Event.describe] at hlist

/-- The events of a list of nodes, in words. -/
def walkText (ns : List Node) : List String := (ns.flatMap walk).map Event.describe

theorem walkText_cons (n : Node) (ns : List Node) (rest : List String) :
    walkText (n :: ns) ++ rest
      = (Event.enter n).describe
        :: (walkText n.children ++ (Event.exit n).describe :: (walkText ns ++ rest)) := by
  simp [walkText, walk_eq n, around]

/-- **Lists of nodes are known from their walks.** Up to the exit that follows them, the walks of
two lists of nodes are the same in words only if the nodes differ in spans at most. -/
theorem map_erase_eq_of_walkText {ns ms : List Node} (hns : ∀ n ∈ ns, n.label ≠ .program)
    {x y : Node} {r r' : List String}
    (h : walkText ns ++ (Event.exit x).describe :: r
      = walkText ms ++ (Event.exit y).describe :: r') :
    ns.map erase = ms.map erase ∧ (Event.exit x).describe :: r = (Event.exit y).describe :: r' := by
  induction hlength : (walkText ns).length using Nat.strongRecOn generalizing ns ms x y r r' with
  | ind k ih =>
    subst hlength
    cases ns with
    | nil =>
      cases ms with
      | nil => exact ⟨rfl, h⟩
      | cons m ms =>
        rw [walkText_cons] at h
        exact absurd (List.cons.inj h).1.symm (describe_enter_ne_exit m x)
    | cons n ns =>
      have hsize := congrArg List.length (walkText_cons n ns [])
      simp only [List.length_cons, List.length_append, List.length_nil] at hsize
      cases ms with
      | nil =>
        rw [walkText_cons] at h
        exact absurd (List.cons.inj h).1 (describe_enter_ne_exit n y)
      | cons m ms =>
        rw [walkText_cons, walkText_cons] at h
        obtain ⟨hn, hothers⟩ := List.forall_mem_cons.1 hns
        obtain ⟨henter, hinside⟩ := List.cons.inj h
        -- The parts of the first nodes come first, up to the exits of these nodes.
        obtain ⟨hchildren, hbehind⟩ :=
          ih _ (by omega) (fun c hc => label_ne_program_of_mem_children hc) hinside rfl
        obtain ⟨hrest, hend⟩ := ih _ (by omega) hothers (List.cons.inj hbehind).2 rfl
        have hdescribe : n.describe = m.describe := by
          simpa [Event.describe] using henter
        refine ⟨?_, hend⟩
        rw [List.map_cons, List.map_cons, hrest, erase_eq_of_describe_eq hn hdescribe hchildren]

end Node

/-! ### Globals -/

namespace Item

/-- Two parts that are both globals, or both none, are known from their nodes. -/
theorem erase_eq_of_node {i j : Item} (hglobal : i.isGlobal = j.isGlobal)
    (h : i.node.erase = j.node.erase) : i.erase = j.erase := by
  cases i with
  | global d =>
    cases j with
    | global e =>
      have hdeclaration : d.erase = e.erase := by
        simpa [node, Node.erase, Statement.erase] using h
      rw [erase, erase, hdeclaration]
    | _ => cases hglobal
  | function f =>
    cases j with
    | function g => simpa [node, Node.erase, erase] using h
    | global e => cases hglobal
    | statement t => cases h
  | statement s =>
    cases j with
    | statement t => simpa [node, Node.erase, erase] using h
    | global e => cases hglobal
    | function g => cases h

/-- What looks like a global and is none is a late declaration. -/
theorem isLateDeclaration_of_node {i j : Item} (hi : i.isGlobal = true) (hj : j.isGlobal = false)
    (h : i.node.erase = j.node.erase) : j.isLateDeclaration = true := by
  cases i with
  | global d =>
    cases j with
    | global e => cases hj
    | function g => cases h
    | statement t =>
      cases t with
      | declare e => rfl
      | ifElse condition body otherwise span => cases otherwise <;> cases h
      | _ => cases h
  | _ => cases hi

theorem map_erase_eq_of_others {items items' : List Item}
    (hitems : ∀ item ∈ items, item.isGlobal = false)
    (hitems' : ∀ item ∈ items', item.isGlobal = false)
    (h : items.map (·.node.erase) = items'.map (·.node.erase)) :
    items.map erase = items'.map erase := by
  induction items generalizing items' with
  | nil =>
    obtain rfl := List.map_eq_nil_iff.1 h.symm
    rfl
  | cons i rest ih =>
    obtain ⟨j, rest', rfl, hnode, hrest⟩ := List.map_eq_cons_iff.1 h.symm
    obtain ⟨hi, hothers⟩ := List.forall_mem_cons.1 hitems
    obtain ⟨hj, hothers'⟩ := List.forall_mem_cons.1 hitems'
    rw [List.map_cons, List.map_cons, ih hothers hothers' hrest.symm,
      erase_eq_of_node (hi.trans hj.symm) hnode.symm]

/-- The parts behind the leading globals hold no global, and a declaration is not the first. -/
def InOrder (items : List Item) : Prop :=
  (∀ item ∈ items.dropWhile isGlobal, item.isGlobal = false)
    ∧ ∀ item ∈ (items.dropWhile isGlobal).head?, item.isLateDeclaration = false

/-- In this order, the globals are known from the nodes. -/
theorem map_erase_eq_of_nodes {items items' : List Item} (hitems : InOrder items)
    (hitems' : InOrder items') (h : items.map (·.node.erase) = items'.map (·.node.erase)) :
    items.map erase = items'.map erase := by
  induction items generalizing items' with
  | nil =>
    obtain rfl := List.map_eq_nil_iff.1 h.symm
    rfl
  | cons i rest ih =>
    obtain ⟨j, rest', rfl, hnode, hrest⟩ := List.map_eq_cons_iff.1 h.symm
    by_cases hi : i.isGlobal = true
    · by_cases hj : j.isGlobal = true
      · rw [InOrder, List.dropWhile_cons_of_pos hi] at hitems
        rw [InOrder, List.dropWhile_cons_of_pos hj] at hitems'
        rw [List.map_cons, List.map_cons, ih hitems hitems' hrest.symm,
          erase_eq_of_node (hi.trans hj.symm) hnode.symm]
      · have hlate := isLateDeclaration_of_node hi (by simpa using hj) hnode.symm
        rw [InOrder, List.dropWhile_cons_of_neg hj] at hitems'
        rw [hitems'.2 j rfl] at hlate
        cases hlate
    · rw [InOrder, List.dropWhile_cons_of_neg hi] at hitems
      by_cases hj : j.isGlobal = true
      · have hlate := isLateDeclaration_of_node hj (by simpa using hi) hnode
        rw [hitems.2 i rfl] at hlate
        cases hlate
      · rw [InOrder, List.dropWhile_cons_of_neg hj] at hitems'
        exact map_erase_eq_of_others hitems.1 hitems'.1 h

end Item

namespace Program

variable {settings settings' : Settings} {tokens tokens' : List Token} {p q : Program}

theorem inOrder_of_wellFormed (h : p.wellFormed = true) : Item.InOrder p.items := by
  simp only [wellFormed, others, Bool.and_eq_true, List.all_eq_true] at h
  obtain ⟨⟨hglobal, hlate⟩, -⟩ := h
  refine ⟨fun item hitem => by simpa using hglobal item hitem, fun item hitem => ?_⟩
  rw [Option.mem_def.1 hitem] at hlate
  simpa using hlate

/-- **A trace identifies a program.** Two programs that were read from any tokens have the same
trace exactly when they differ in spans at most, which declarations are globals included. -/
theorem trace_eq_iff_erase_eq (hp : ofTokens settings tokens = .ok p)
    (hq : ofTokens settings' tokens' = .ok q) : p.trace = q.trace ↔ p.erase = q.erase := by
  obtain ⟨s, hs⟩ := ofTokens_eq_ok_iff.1 hp
  obtain ⟨s', hs'⟩ := ofTokens_eq_ok_iff.1 hq
  obtain ⟨-, hfits, -⟩ := of_parseTokens hs
  obtain ⟨-, hfits', -⟩ := of_parseTokens hs'
  refine ⟨fun h => ?_, trace_eq_of_erase_eq⟩
  have hwalk (r : Program) : r.trace = (Event.enter (.program r)).describe
      :: (Node.walkText (r.items.map Item.node) ++ [(Event.exit (.program r)).describe]) := by
    rw [trace, r.events_eq_walk, Node.walk_eq]
    simp [Node.around, Node.walkText, Node.children]
  rw [hwalk p, hwalk q] at h
  have hparts : ∀ n ∈ p.items.map Item.node, n.label ≠ .program :=
    fun n hn => Node.label_ne_program_of_mem_children (n := .program p) hn
  obtain ⟨hnodes, -⟩ := Node.map_erase_eq_of_walkText hparts (List.cons.inj h).2
  rw [List.map_map, List.map_map] at hnodes
  have hitems := Item.map_erase_eq_of_nodes (inOrder_of_wellFormed hfits)
    (inOrder_of_wellFormed hfits') hnodes
  rw [erase, erase, hitems]

theorem trace_eq_iff_erase_eq_at_spaced_name :
    ∃ p q, ofTokens ⟨8⟩ [⟨.intType, "int", default⟩, ⟨.identifier, "a = b", default⟩,
          ⟨.assign, "=", default⟩, ⟨.string, "\"\u0301", default⟩, ⟨.semicolon, ";", default⟩] = .ok p
      ∧ ofTokens ⟨9⟩ [⟨.intType, "int", default⟩, ⟨.identifier, "a = b", default⟩,
          ⟨.assign, "", default⟩, ⟨.string, "\"\u0301", ⟨⟨7, 1, 8⟩, ⟨12, 1, 12⟩⟩⟩,
          ⟨.semicolon, ";", default⟩] = .ok q
      ∧ p ≠ q ∧ p.trace = q.trace ∧ p.erase = q.erase := by
  have hp : ofTokens ⟨8⟩ [⟨.intType, "int", default⟩, ⟨.identifier, "a = b", default⟩,
        ⟨.assign, "=", default⟩, ⟨.string, "\"\u0301", default⟩, ⟨.semicolon, ";", default⟩]
      = .ok ⟨[.global ⟨.int, "a = b", some (.string "\"\u0301" default), default⟩], default⟩ := by
    decide +kernel
  have hq : ofTokens ⟨9⟩ [⟨.intType, "int", default⟩, ⟨.identifier, "a = b", default⟩,
        ⟨.assign, "", default⟩, ⟨.string, "\"\u0301", ⟨⟨7, 1, 8⟩, ⟨12, 1, 12⟩⟩⟩,
        ⟨.semicolon, ";", default⟩]
      = .ok ⟨[.global ⟨.int, "a = b", some (.string "\"\u0301" ⟨⟨7, 1, 8⟩, ⟨12, 1, 12⟩⟩), default⟩],
        default⟩ := by
    decide +kernel
  have htrace := (trace_eq_iff_erase_eq hp hq).2 rfl
  exact ⟨_, _, hp, hq, by decide +kernel, htrace, (trace_eq_iff_erase_eq hp hq).1 htrace⟩

end Program

end ImpFront
