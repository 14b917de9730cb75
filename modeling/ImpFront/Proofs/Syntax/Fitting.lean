import ImpFront.Proofs.Syntax.Members
import ImpFront.Proofs.Syntax.Runs
/-!
# ImpFront.Proofs.Syntax.Fitting

**The parts of a tree that can be read can be read alone.** A part of an expression is read with a
minimum for its operators; what can be built above a minimum can be built above a smaller one
(`Expr.fits_of_le`), and so above the least.
-/

namespace ImpFront

namespace Expr

/-- What can be built above a minimum can be built above a smaller one. -/
theorem fits_of_le {a b : Power} (hab : a ≤ b) : (e : Expr) → e.fits b = true → e.fits a = true
  | symbol .., h | number .., h | string .., h | not .., h | group .., h | assign .., h
  | call .., h => h
  | binary op left right span, h => by
    simp only [fits, Bool.and_eq_true, decide_eq_true_eq] at h ⊢
    obtain ⟨⟨⟨hpower, hleft⟩, hedge⟩, hright⟩ := h
    exact ⟨⟨⟨Nat.lt_of_le_of_lt hab hpower, left.fits_of_le hab hleft⟩, hedge⟩, hright⟩

theorem wellFormed_of_fits {e : Expr} {least : Power} (h : e.fits least = true) :
    e.wellFormed = true :=
  e.fits_of_le (Nat.zero_le least) h

end Expr

namespace Node

/-- Whether all expressions of a tree can be read. -/
def wellFormed : Node → Bool
  | program p => p.items.all Item.wellFormed
  | function f => f.body.wellFormed
  | parameter _ => true
  | block b => b.wellFormed
  | statement s => s.wellFormed
  | expr e => e.wellFormed

variable {c n : Node}

theorem wellFormed_of_mem_expr {e : Expr} (he : e.wellFormed = true)
    (h : c ∈ (expr e).children) : c.wellFormed = true := by
  cases e with
  | symbol _ _ | number _ _ | string _ _ => cases h
  | not operand span | group operand span | assign target operand span =>
    obtain rfl := List.mem_singleton.1 h
    exact Expr.wellFormed_of_fits he
  | binary op left right span =>
    simp only [Expr.wellFormed, Expr.fits, Bool.and_eq_true] at he
    obtain ⟨⟨⟨-, hleft⟩, -⟩, hright⟩ := he
    rcases List.mem_cons.1 h with rfl | h
    · exact Expr.wellFormed_of_fits hleft
    · obtain rfl := List.mem_singleton.1 h
      exact Expr.wellFormed_of_fits hright
  | call callee arguments span =>
    obtain ⟨argument, hmem, rfl⟩ := List.mem_map.1 h
    exact Expr.fitsList_iff.1 he argument hmem

theorem wellFormed_of_mem_statement {s : Statement} (hs : s.wellFormed = true)
    (h : c ∈ (statement s).children) : c.wellFormed = true := by
  cases s with
  | declare d =>
    obtain ⟨type, name, value, span⟩ := d
    cases value with
    | none => cases h
    | some value =>
      obtain rfl := List.mem_singleton.1 h
      exact hs
  | update u =>
    cases u with
    | step name op side span => cases h
    | assign name op value span =>
      obtain rfl := List.mem_singleton.1 h
      exact hs
  | ifElse condition body otherwise span =>
    cases otherwise with
    | none =>
      simp only [Statement.wellFormed, Bool.and_eq_true] at hs
      simp only [children, Option.toList_none, List.map_nil, List.mem_cons, List.not_mem_nil,
        or_false] at h
      rcases h with rfl | rfl
      · exact hs.1
      · exact hs.2
    | some otherwise =>
      simp only [Statement.wellFormed, Bool.and_eq_true] at hs
      simp only [children, Option.toList_some, List.map_cons, List.map_nil, List.mem_cons,
        List.not_mem_nil, or_false] at h
      rcases h with rfl | rfl | rfl
      · exact hs.1.1
      · exact hs.1.2
      · exact hs.2
  | forLoop init condition step body span =>
    simp only [Statement.wellFormed, Bool.and_eq_true] at hs
    simp only [children, List.mem_cons, List.not_mem_nil, or_false] at h
    rcases h with rfl | rfl | rfl | rfl
    · exact hs.1.1.1
    · exact hs.1.1.2
    · exact hs.1.2
    · exact hs.2
  | whileLoop condition body span =>
    simp only [Statement.wellFormed, Bool.and_eq_true] at hs
    simp only [children, List.mem_cons, List.not_mem_nil, or_false] at h
    rcases h with rfl | rfl
    · exact hs.1
    · exact hs.2
  | ret value span =>
    cases value with
    | none => cases h
    | some value =>
      obtain rfl := List.mem_singleton.1 h
      exact hs
  | call call span =>
    obtain rfl := List.mem_singleton.1 h
    exact hs

/-- Where a node can be read, its parts can. -/
theorem wellFormed_of_mem_children (hn : n.wellFormed = true) (h : c ∈ n.children) :
    c.wellFormed = true := by
  cases n with
  | program p =>
    obtain ⟨item, hitem, rfl⟩ := List.mem_map.1 h
    have hwell := List.all_eq_true.1 hn item hitem
    cases item <;> exact hwell
  | function f =>
    rcases List.mem_append.1 h with hparameter | hbody
    · obtain ⟨q, -, rfl⟩ := List.mem_map.1 hparameter
      rfl
    · obtain rfl := List.mem_singleton.1 hbody
      exact hn
  | parameter p => cases h
  | block b =>
    obtain ⟨body, span⟩ := b
    obtain ⟨s, hs, rfl⟩ := List.mem_map.1 h
    exact Statement.wellFormedList_iff.1 hn s hs
  | statement s => exact wellFormed_of_mem_statement hn h
  | expr e => exact wellFormed_of_mem_expr hn h

/-- Where a tree can be read, everything below it can. -/
theorem wellFormed_of_mem_preorder (hn : n.wellFormed = true) (h : c ∈ n.preorder) :
    c.wellFormed = true := by
  induction n using induct with
  | h n ih =>
    rw [preorder_eq] at h
    rcases List.mem_cons.1 h with rfl | h
    · exact hn
    · obtain ⟨d, hd, hc⟩ := List.mem_flatMap.1 h
      exact ih d hd (wellFormed_of_mem_children hn hd) hc

end Node

end ImpFront
