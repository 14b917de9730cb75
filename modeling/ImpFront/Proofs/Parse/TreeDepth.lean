import ImpFront.Proofs.Parse.Grammar
import ImpFront.Proofs.Syntax.Erased
import ImpFront.Proofs.Syntax.Runs
/-!
# ImpFront.Proofs.Parse.TreeDepth

**How deep an accepted tree can be.** The nesting limit counts the levels that reading
opens, and the loop over operators opens none for its left operand. So a sum of any
length is accepted with two levels, while its tree is as deep as the sum is long: the
limit alone bounds the depth only where it leaves no room for an operator. With the
longest run of operators it does bound it.
-/

namespace ImpFront

/-- `a + a + … + a` with `n` operators. -/
def Expr.sum : Nat → Expr
  | 0 => symbol "a" default
  | n + 1 => binary .add (sum n) (symbol "a" default) default

/-- `int x = a + a + … + a;` with `n` operators. -/
def Program.ofSum (n : Nat) : Program :=
  ⟨[.global ⟨.int, "x", some (Expr.sum n), default⟩], default⟩

/-- A token that says a sign. -/
def Sign.token (sign : Sign) : Token := ⟨sign.kind, sign.text, default⟩

namespace Expr

theorem mem_signs_sum {n : Nat} {sign : Sign} (h : sign ∈ (sum n).signs) :
    sign = .name "a" ∨ sign = .fixed .plus := by
  induction n with
  | zero => exact .inl (List.mem_singleton.1 h)
  | succ n ih =>
    rw [sum, signs] at h
    rcases List.mem_append.1 h with h | h
    · exact ih h
    · simp only [signs, List.mem_cons, List.not_mem_nil, or_false] at h
      rcases h with rfl | rfl
      · exact .inr rfl
      · exact .inl rfl

/-- Operators of the same power associate to the left. -/
theorem fits_sum (n : Nat) :
    (sum n).fits Power.lowest = true ∧ BinaryOp.power .add ≤ (sum n).edge := by
  induction n with
  | zero => exact ⟨rfl, by decide⟩
  | succ n ih =>
    obtain ⟨hfits, hedge⟩ := ih
    refine ⟨?_, by rw [sum, edge]; decide⟩
    simp only [sum, fits, Bool.and_eq_true, decide_eq_true_eq]
    exact ⟨⟨⟨by decide, hfits⟩, hedge⟩, trivial⟩

theorem inner_sum_le (n : Nat) : (sum n).inner ≤ 1 := by
  induction n with
  | zero => exact Nat.zero_le 1
  | succ n ih =>
    rw [sum, inner, inner]
    omega

theorem height_sum (n : Nat) : (Node.expr (sum n)).height = n + 1 := by
  have hleaf : (Node.expr (symbol "a" default)).height = 1 := by
    rw [Node.height_eq]
    rfl
  induction n with
  | zero => exact hleaf
  | succ n ih =>
    rw [Node.height_eq, sum, Node.children, List.map_cons, List.map_cons, ih, hleaf]
    simp only [List.map_nil, List.foldr_cons, List.foldr_nil]
    omega

end Expr

namespace Program

theorem mem_signs_ofSum {n : Nat} {sign : Sign} (h : sign ∈ (ofSum n).signs) :
    sign.token.sign = sign ∧ sign.kind ≠ .eof := by
  have hsigns : (ofSum n).signs = [.fixed .intType, .name "x", .fixed .assign]
      ++ (Expr.sum n).signs ++ [.fixed .semicolon] := by
    simp [signs, ofSum, Item.signs, Declaration.signs, Ty.kind]
  rw [hsigns, List.mem_append, List.mem_append] at h
  rcases h with (h | h) | h
  · simp only [List.mem_cons, List.not_mem_nil, or_false] at h
    rcases h with rfl | rfl | rfl <;> exact ⟨rfl, by decide⟩
  · rcases Expr.mem_signs_sum h with rfl | rfl <;> exact ⟨rfl, by decide⟩
  · obtain rfl := List.mem_singleton.1 h
    exact ⟨rfl, by decide⟩

/-- A sum of any length is accepted if there are two levels. -/
theorem exists_ofTokens_sum (settings : Settings) (h : 2 ≤ settings.maxDepth) (n : Nat) :
    ∃ q, ofTokens settings ((ofSum n).signs.map Sign.token) = .ok q
      ∧ q.erase = (ofSum n).erase := by
  have hopen : ∀ t ∈ (ofSum n).signs.map Sign.token, t.kind ≠ .eof := by
    intro t ht
    obtain ⟨sign, hsign, rfl⟩ := List.mem_map.1 ht
    exact (mem_signs_ofSum hsign).2
  have hsigns : (State.ofTokens ((ofSum n).signs.map Sign.token)).signs = (ofSum n).signs := by
    rw [signs_ofTokens_of_eof_free hopen, List.map_map]
    conv_rhs => rw [← List.map_id (ofSum n).signs]
    exact List.map_congr_left fun sign hsign => (mem_signs_ofSum hsign).1
  have hfits : (ofSum n).wellFormed = true := by
    have hvalue : (Expr.sum n).wellFormed = true := (Expr.fits_sum n).1
    have hothers : (ofSum n).others = [] := rfl
    rw [wellFormed, hothers]
    simp [ofSum, Item.wellFormed, Declaration.wellFormed, hvalue]
  have hneed : (ofSum n).need ≤ settings.maxDepth := by
    have := Expr.inner_sum_le n
    simp only [ofSum, need, Item.needList, Item.need, Declaration.need, Expr.need]
    omega
  obtain ⟨q, s, hq, herase⟩ := exists_parseTokens settings hsigns hfits hneed
  exact ⟨q, ofTokens_eq_ok_iff.2 ⟨s, hq⟩, herase⟩

theorem height_ofSum (n : Nat) : (Node.program (ofSum n)).height = n + 3 := by
  rw [Node.height_eq]
  simp only [ofSum, Node.children, List.map_cons, List.map_nil, Item.node, List.foldr_cons,
    List.foldr_nil]
  rw [Node.height_eq]
  simp only [Node.children, Option.toList_some, List.map_cons, List.map_nil, List.foldr_cons,
    List.foldr_nil, Expr.height_sum]
  omega

/-- **The limit and the depth of a tree.** The most nodes open at once in an accepted program are
bounded by a number that depends on the limit alone exactly if the limit is below two. In general
the longest run of operators counts as well. -/
theorem maxOpen_bounded_iff (limit : Nat) :
    ((∃ most, ∀ tokens p, ofTokens ⟨limit⟩ tokens = .ok p → Event.maxOpen p.events ≤ most)
      ↔ limit < 2) ∧
    ∀ tokens p, ofTokens ⟨limit⟩ tokens = .ok p →
      Event.maxOpen p.events ≤ 3 + (p.longestRun + 2) * limit := by
  have hneed (tokens : List Token) (p : Program) (h : ofTokens ⟨limit⟩ tokens = .ok p) :
      p.need ≤ limit := by
    obtain ⟨s, hs⟩ := ofTokens_eq_ok_iff.1 h
    exact (of_parseTokens hs).2.2
  have hgeneral (tokens : List Token) (p : Program) (h : ofTokens ⟨limit⟩ tokens = .ok p) :
      Event.maxOpen p.events ≤ 3 + (p.longestRun + 2) * limit :=
    Nat.le_trans p.maxOpen_events_le
      (Nat.add_le_add_left (Nat.mul_le_mul_left _ (hneed tokens p h)) 3)
  refine ⟨⟨?_, fun hlimit => ⟨3 + 2 * limit, fun tokens p h => ?_⟩⟩, hgeneral⟩
  · -- With two levels, a sum of more than `most` operands is accepted and too deep.
    rintro ⟨most, hmost⟩
    refine Nat.lt_of_not_le fun hlimit => ?_
    obtain ⟨q, hq, herase⟩ := exists_ofTokens_sum ⟨limit⟩ hlimit most
    have hheight := hmost _ q hq
    rw [q.maxOpen_events, height_eq_of_erase_eq herase, height_ofSum] at hheight
    omega
  · -- With less, no operator has a level for its right operand, and all runs are empty.
    have hlevels : (Node.program p).levels < 2 := Nat.lt_of_le_of_lt (hneed tokens p h) hlimit
    have hrun : p.longestRun = 0 := Node.longestRun_eq_zero hlevels
    have hbound := hgeneral tokens p h
    rw [hrun, Nat.zero_add] at hbound
    exact hbound

end Program

end ImpFront
