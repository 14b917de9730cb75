import ImpFront.Proofs.Syntax.Nested
import ImpFront.Proofs.Syntax.Traversal
/-!
# ImpFront.Proofs.Syntax.Visits

**A walk, place by place.** Subtrees that are equal are equal nodes, and the events of a walk do
not tell them apart: a walk that opens the second of two equal arguments inside the first has the
same nodes entered and left. So a node is known here by the way down to it, and a walk is a list of
visits, each of which enters or leaves the node at the end of one way.

The visits of a walk are balanced. They enter each place of the tree once, in preorder, and leave
it once, in postorder; both orders are said of two ways (`Way.Pre`, `Way.Post`), not by a recursion
over the tree.
-/

namespace ImpFront

/-! ### Ways -/

/-- The way from a node down to one below it: the number of a child, then the number of one of its
children, and so on. -/
abbrev Way := List Nat

/-- The node at the end of a way. -/
def Node.at? (n : Node) : Way → Option Node
  | [] => some n
  | i :: way => n.children[i]?.bind (·.at? way)

namespace Way

/-- The second way goes on where the first ends. -/
def Above (a b : Way) : Prop := ∃ i rest, b = a ++ i :: rest

/-- The ways part at a node, and the first takes the earlier child. -/
def LeftOf (a b : Way) : Prop :=
  ∃ common i j rest rest', i < j ∧ a = common ++ i :: rest ∧ b = common ++ j :: rest'

/-- A node before those below it, and otherwise from left to right. -/
def Pre (a b : Way) : Prop := Above a b ∨ LeftOf a b

/-- A node after those below it, and otherwise from left to right. -/
def Post (a b : Way) : Prop := Above b a ∨ LeftOf a b

theorem not_above_self (a : Way) : ¬ Above a a := by
  rintro ⟨i, rest, h⟩
  exact absurd (congrArg List.length h) (by simp)

theorem not_leftOf_self (a : Way) : ¬ LeftOf a a := by
  rintro ⟨common, i, j, rest, rest', hlt, h, h'⟩
  have heq : i :: rest = j :: rest' := List.append_cancel_left (h.symm.trans h')
  exact absurd (List.cons.inj heq).1 (Nat.ne_of_lt hlt)

theorem Pre.ne {a b : Way} (h : Pre a b) : a ≠ b := by
  rintro rfl
  exact h.elim (not_above_self a) (not_leftOf_self a)

theorem Post.ne {a b : Way} (h : Post a b) : a ≠ b := by
  rintro rfl
  exact h.elim (not_above_self a) (not_leftOf_self a)

end Way

/-! ### Visits -/

/-- The node at the end of a way is entered or left. -/
inductive Visit where
  | enter (way : Way)
  | exit (way : Way)
  deriving DecidableEq, Repr

namespace Visit

/-- The way to the node entered, if one is. -/
def entered? : Visit → Option Way
  | enter way => some way
  | exit _ => none

/-- The way to the node left, if one is. -/
def left? : Visit → Option Way
  | enter _ => none
  | exit way => some way

/-- The way to the node visited. -/
def way : Visit → Way
  | enter way | exit way => way

theorem way_of_entered? (v : Visit) (a : Way) (h : v.entered? = some a) : v.way = a := by
  cases v with
  | enter way => exact Option.some.inj h
  | exit way => cases h

theorem way_of_left? (v : Visit) (a : Way) (h : v.left? = some a) : v.way = a := by
  cases v with
  | enter way => cases h
  | exit way => exact Option.some.inj h

/-- The event of a visit, if there is a node at the end of its way. -/
def event? (root : Node) : Visit → Option Event
  | enter way => (root.at? way).map .enter
  | exit way => (root.at? way).map .exit

/-- The nodes open after a visit, the innermost first. -/
def openedBy (ways : List Way) : Visit → List Way
  | enter way => way :: ways
  | exit _ => ways.tail

/-- The nodes open after some visits, the innermost first. -/
def openAfter (visits : List Visit) : List Way := visits.foldl openedBy []

/-- Nodes are left in the opposite order in which they were entered. -/
structure Balanced (visits : List Visit) : Prop where
  /-- A node is left when it is the innermost that is open. -/
  exit_innermost : ∀ before way behind, visits = before ++ exit way :: behind →
    (openAfter before).head? = some way
  /-- No more nodes are left than have been entered. -/
  left_le_entered : ∀ before, before <+: visits →
    (before.filterMap left?).length ≤ (before.filterMap entered?).length
  /-- Nothing is open at the end. -/
  closed : openAfter visits = []

variable {ways : List Way} {before behind : List Visit}

/-- With some nodes open, the visits that follow leave them all, each when it is the innermost. -/
def Matched : List Way → List Visit → Prop
  | ways, [] => ways = []
  | ways, enter way :: rest => Matched (way :: ways) rest
  | ways, exit way :: rest => ways.head? = some way ∧ Matched ways.tail rest

theorem Matched.after_before (h : Matched ways (before ++ behind)) :
    Matched (before.foldl openedBy ways) behind := by
  induction before generalizing ways with
  | nil => exact h
  | cons v before ih =>
    cases v with
    | enter way => exact ih h
    | exit way => exact ih h.2

/-- What is open has been entered and not left. -/
theorem Matched.length_open (h : Matched ways (before ++ behind)) :
    (before.filterMap left?).length + (before.foldl openedBy ways).length
      = (before.filterMap entered?).length + ways.length := by
  induction before generalizing ways with
  | nil => rfl
  | cons v before ih =>
    cases v with
    | enter way =>
      have hrest : Matched (way :: ways) (before ++ behind) := h
      have := ih hrest
      simp only [List.filterMap_cons, left?, entered?, List.foldl_cons, openedBy,
        List.length_cons] at this ⊢
      omega
    | exit way =>
      obtain ⟨hhead, hrest⟩ := h
      have := ih hrest
      have hpos : 0 < ways.length := by
        cases ways with
        | nil => cases hhead
        | cons w ways => exact Nat.succ_pos _
      simp only [List.filterMap_cons, left?, entered?, List.foldl_cons, openedBy,
        List.length_cons, List.length_tail] at this ⊢
      omega

theorem Matched.balanced {visits : List Visit} (h : Matched [] visits) : Balanced visits where
  exit_innermost := by
    rintro before way behind rfl
    exact (Matched.after_before h).1
  left_le_entered := by
    rintro before ⟨behind, rfl⟩
    exact Nat.le_of_add_right_le (Nat.le_of_eq (Matched.length_open h))
  closed := by
    have hend : Matched [] (visits ++ []) := by rwa [List.append_nil]
    exact Matched.after_before hend

end Visit

/-! ### Visits of a walk -/

/-- The ways to all nodes of a tree, once each and in some order. -/
structure Node.Lists (root : Node) (before : Way → Way → Prop) (ways : List Way) : Prop where
  nodup : ways.Nodup
  sorted : ways.Pairwise before
  mem_iff : ∀ way, way ∈ ways ↔ (root.at? way).isSome = true

namespace Node

variable {n root c : Node} {i : Nat} {way : Way} {ways : List Way}

theorem at?_append (n : Node) (a b : Way) : n.at? (a ++ b) = (n.at? a).bind (·.at? b) := by
  induction a generalizing n with
  | nil => rfl
  | cons i a ih =>
    rw [List.cons_append, at?, at?, Option.bind_assoc]
    exact congrArg _ (funext fun c => ih c)

/-- One step further down. -/
theorem at?_child (h : root.at? way = some n) (hc : n.children[i]? = some c) :
    root.at? (way ++ [i]) = some c := by
  rw [at?_append, h, Option.bind_some, at?, hc]
  rfl

/-- The visits of a walk over the nodes below the end of a way. -/
def visits (n : Node) (way : Way) : List Visit :=
  .enter way :: (n.children.zipIdx.attach.flatMap fun ⟨(c, i), _⟩ => c.visits (way ++ [i]))
    ++ [.exit way]
termination_by sizeOf n
decreasing_by exact sizeOf_lt_of_mem_children (List.fst_mem_of_mem_zipIdx ‹_›)

/-- The visits of the walks over some children, each with its number. -/
def visitsAll (way : Way) (cs : List (Node × Nat)) : List Visit :=
  cs.flatMap fun x => x.1.visits (way ++ [x.2])

theorem visits_eq (n : Node) (way : Way) :
    n.visits way = .enter way :: visitsAll way n.children.zipIdx ++ [.exit way] := by
  rw [visits, visitsAll,
    List.flatMap_subtype (g := fun x : Node × Nat => x.1.visits (way ++ [x.2])) fun _ _ => rfl,
    List.unattach_attach]

/-- A walk issues the events of its visits. -/
theorem map_event?_visits (h : root.at? way = some n) :
    (n.visits way).map (Visit.event? root) = n.walk.map some := by
  induction n using induct generalizing way with
  | h n ih =>
    have hchildren : (visitsAll way n.children.zipIdx).map (Visit.event? root)
        = (n.children.flatMap walk).map some := by
      rw [visitsAll, List.map_flatMap]
      calc n.children.zipIdx.flatMap
            (fun x => (x.1.visits (way ++ [x.2])).map (Visit.event? root))
          = n.children.zipIdx.flatMap (fun x => x.1.walk.map some) :=
            List.flatMap_congr fun x hx => ih x.1 (List.fst_mem_of_mem_zipIdx hx)
              (at?_child h (List.mem_zipIdx_iff_getElem?.1 hx))
        _ = (n.children.zipIdx.map Prod.fst).flatMap (fun c => c.walk.map some) :=
            (List.flatMap_map Prod.fst (fun c : Node => c.walk.map some) _).symm
        _ = (n.children.flatMap walk).map some := by
            rw [List.zipIdx_map_fst, List.map_flatMap]
    rw [visits_eq, walk_eq, around, List.map_append, List.map_append, List.map_cons, List.map_cons,
      hchildren]
    simp [Visit.event?, h]

/-- A walk leaves what was open before it open, and nothing else. -/
theorem matched_visits {rest : List Visit} (h : Visit.Matched ways rest) :
    Visit.Matched ways (n.visits way ++ rest) := by
  induction n using induct generalizing way ways rest with
  | h n ih =>
    have hall (cs : List (Node × Nat)) (hcs : ∀ x ∈ cs, x.1 ∈ n.children) {ways : List Way}
        {rest : List Visit} (h : Visit.Matched ways rest) :
        Visit.Matched ways (visitsAll way cs ++ rest) := by
      induction cs with
      | nil => exact h
      | cons x cs ihcs =>
        obtain ⟨hx, hcs⟩ := List.forall_mem_cons.1 hcs
        rw [visitsAll, List.flatMap_cons, List.append_assoc]
        exact ih x.1 hx (ihcs hcs)
    have hinside : Visit.Matched (way :: ways) (.exit way :: rest) := ⟨rfl, h⟩
    rw [visits_eq, List.append_assoc]
    exact hall _ (fun x hx => List.fst_mem_of_mem_zipIdx hx) hinside

/-! ### Places -/

/-- A walk visits places of its tree only. -/
theorem exists_at?_of_mem_visits {v : Visit} (h : v ∈ n.visits way) :
    ∃ rest, (n.at? rest).isSome = true ∧ v.way = way ++ rest := by
  induction n using induct generalizing way with
  | h n ih =>
    rw [visits_eq, List.mem_append, List.mem_cons, List.mem_singleton] at h
    rcases h with (rfl | h) | rfl
    · exact ⟨[], rfl, (List.append_nil way).symm⟩
    · obtain ⟨⟨c, i⟩, hx, hv⟩ := List.mem_flatMap.1 h
      obtain ⟨rest, hrest, hway⟩ := ih c (List.fst_mem_of_mem_zipIdx hx) hv
      refine ⟨i :: rest, ?_, by rw [hway, List.append_assoc, List.singleton_append]⟩
      rw [at?, List.mem_zipIdx_iff_getElem?.1 hx, Option.bind_some]
      exact hrest
    · exact ⟨[], rfl, (List.append_nil way).symm⟩

/-- A walk enters and leaves every place of its tree. -/
theorem mem_visits_of_at? (way : Way) {rest : Way} (h : (n.at? rest).isSome = true) :
    .enter (way ++ rest) ∈ n.visits way ∧ .exit (way ++ rest) ∈ n.visits way := by
  induction rest generalizing n way with
  | nil =>
    rw [visits_eq, List.append_nil]
    exact ⟨List.mem_append_left _ List.mem_cons_self,
      List.mem_append_right _ (List.mem_singleton.2 rfl)⟩
  | cons i rest ih =>
    obtain ⟨m, hm⟩ := Option.isSome_iff_exists.1 h
    obtain ⟨c, hc, hrest⟩ := Option.bind_eq_some_iff.1 hm
    obtain ⟨henter, hexit⟩ := ih (way ++ [i]) (Option.isSome_iff_exists.2 ⟨m, hrest⟩)
    rw [List.append_assoc, List.singleton_append] at henter hexit
    have hchild : ∀ v ∈ c.visits (way ++ [i]), v ∈ n.visits way := by
      intro v hv
      rw [visits_eq]
      refine List.mem_append_left _ (List.mem_cons_of_mem _ ?_)
      exact List.mem_flatMap.2 ⟨(c, i), List.mem_zipIdx_iff_getElem?.2 hc, hv⟩
    exact ⟨hchild _ henter, hchild _ hexit⟩

section Order

variable {before : Way → Way → Prop} {f : Visit → Option Way}

/-- What is visited below a node lies below it. -/
theorem above_of_mem_visitsAll (hf : ∀ v a, f v = some a → v.way = a) {cs : List (Node × Nat)}
    {a : Way} (h : a ∈ (visitsAll way cs).filterMap f) : Way.Above way a := by
  obtain ⟨v, hv, ha⟩ := List.mem_filterMap.1 h
  obtain ⟨⟨c, i⟩, -, hv⟩ := List.mem_flatMap.1 hv
  obtain ⟨rest, -, hway⟩ := exists_at?_of_mem_visits hv
  exact ⟨i, rest, by rw [← hf v a ha, hway, List.append_assoc, List.singleton_append]⟩

/-- Places are visited in an order in which those on the left come first, if those below each child
are. -/
theorem pairwise_visitsAll (way : Way) (hleft : ∀ a b, Way.LeftOf a b → before a b)
    (hf : ∀ v a, f v = some a → v.way = a) {cs : List (Node × Nat)}
    (hcs : cs.Pairwise fun x y => x.2 < y.2)
    (hchild : ∀ x ∈ cs, ((x.1.visits (way ++ [x.2])).filterMap f).Pairwise before) :
    ((visitsAll way cs).filterMap f).Pairwise before := by
  rw [visitsAll, List.filterMap_flatMap, List.pairwise_flatMap]
  refine ⟨hchild, hcs.imp fun {x y} hlt a ha b hb => hleft a b ?_⟩
  obtain ⟨v, hv, ha⟩ := List.mem_filterMap.1 ha
  obtain ⟨w, hw, hb⟩ := List.mem_filterMap.1 hb
  obtain ⟨rest, -, hway⟩ := exists_at?_of_mem_visits hv
  obtain ⟨rest', -, hway'⟩ := exists_at?_of_mem_visits hw
  refine ⟨way, x.2, y.2, rest, rest', hlt, ?_, ?_⟩
  · rw [← hf v a ha, hway, List.append_assoc, List.singleton_append]
  · rw [← hf w b hb, hway', List.append_assoc, List.singleton_append]

end Order

theorem pairwise_zipIdx (cs : List Node) : cs.zipIdx.Pairwise fun x y => x.2 < y.2 := by
  have hnumbers : (cs.zipIdx.map Prod.snd).Pairwise (· < ·) := by
    rw [List.zipIdx_map_snd]
    exact List.pairwise_lt_range'
  exact List.pairwise_map.1 hnumbers

theorem pairwise_entered (n : Node) (way : Way) :
    ((n.visits way).filterMap Visit.entered?).Pairwise Way.Pre := by
  induction n using induct generalizing way with
  | h n ih =>
    have hbelow := pairwise_visitsAll way (fun _ _ => .inr) Visit.way_of_entered?
      (pairwise_zipIdx n.children) fun x hx => ih x.1 (List.fst_mem_of_mem_zipIdx hx) _
    have hways : (n.visits way).filterMap Visit.entered?
        = way :: (visitsAll way n.children.zipIdx).filterMap Visit.entered? := by
      simp [visits_eq, Visit.entered?]
    rw [hways, List.pairwise_cons]
    exact ⟨fun a ha => .inl (above_of_mem_visitsAll Visit.way_of_entered? ha), hbelow⟩

theorem pairwise_left (n : Node) (way : Way) :
    ((n.visits way).filterMap Visit.left?).Pairwise Way.Post := by
  induction n using induct generalizing way with
  | h n ih =>
    have hbelow := pairwise_visitsAll way (fun _ _ => .inr) Visit.way_of_left?
      (pairwise_zipIdx n.children) fun x hx => ih x.1 (List.fst_mem_of_mem_zipIdx hx) _
    have hways : (n.visits way).filterMap Visit.left?
        = (visitsAll way n.children.zipIdx).filterMap Visit.left? ++ [way] := by
      simp [visits_eq, List.filterMap_cons, Visit.left?]
    rw [hways, List.pairwise_append]
    refine ⟨hbelow, List.pairwise_singleton _ _, fun a ha b hb => ?_⟩
    obtain rfl := List.mem_singleton.1 hb
    exact .inl (above_of_mem_visitsAll Visit.way_of_left? ha)

/-- The places that a walk enters, or those that it leaves, are all there are, once each. -/
theorem lists_of_pairwise {before : Way → Way → Prop} {f : Visit → Option Way}
    (hf : ∀ v a, f v = some a → v.way = a)
    (hall : ∀ way, (n.at? way).isSome = true → ∃ v ∈ n.visits [], f v = some way)
    (hne : ∀ {a b}, before a b → a ≠ b) (hsorted : ((n.visits []).filterMap f).Pairwise before) :
    n.Lists before ((n.visits []).filterMap f) where
  nodup := hsorted.imp hne
  sorted := hsorted
  mem_iff way := by
    refine ⟨fun h => ?_, fun h => List.mem_filterMap.2 (hall way h)⟩
    obtain ⟨v, hv, hway⟩ := List.mem_filterMap.1 h
    obtain ⟨rest, hrest, heq⟩ := exists_at?_of_mem_visits hv
    obtain rfl : rest = way := heq.symm.trans (hf v way hway)
    exact hrest

/-- A walk enters every place of its tree once, in preorder. -/
theorem lists_entered (n : Node) : n.Lists Way.Pre ((n.visits []).filterMap Visit.entered?) :=
  lists_of_pairwise Visit.way_of_entered?
    (fun way h => ⟨.enter way, (mem_visits_of_at? [] h).1, rfl⟩) Way.Pre.ne
    (n.pairwise_entered [])

/-- A walk leaves every place of its tree once, in postorder. -/
theorem lists_left (n : Node) : n.Lists Way.Post ((n.visits []).filterMap Visit.left?) :=
  lists_of_pairwise Visit.way_of_left?
    (fun way h => ⟨.exit way, (mem_visits_of_at? [] h).2, rfl⟩) Way.Post.ne
    (n.pairwise_left [])

end Node

/-- **The contract of a traversal**, for every tree. Each event of a walk over a program belongs to
one place of its tree, and is about the node there. The visits of the places are balanced: a node
is left when it is the innermost that is open, never are more left than have been entered, and
nothing is open at the end. Every place is entered exactly once, in preorder, and left exactly once,
in postorder. So the nodes entered are those of the tree in preorder and the nodes left are those in
postorder, and the most nodes open at once are as many as the tree is high. -/
theorem Program.events_traverse (p : Program) :
    (∃ visits : List Visit, visits.map (Visit.event? (.program p)) = p.events.map some
      ∧ Visit.Balanced visits
      ∧ (Node.program p).Lists Way.Pre (visits.filterMap Visit.entered?)
      ∧ (Node.program p).Lists Way.Post (visits.filterMap Visit.left?))
    ∧ p.events.filterMap Event.entered? = (Node.program p).preorder
    ∧ p.events.filterMap Event.left? = (Node.program p).postorder
    ∧ Event.maxOpen p.events = (Node.program p).height := by
  have hmatched : Visit.Matched [] ((Node.program p).visits [] ++ []) := Node.matched_visits rfl
  rw [List.append_nil] at hmatched
  refine ⟨⟨(Node.program p).visits [], ?_, hmatched.balanced, Node.lists_entered _,
    Node.lists_left _⟩, ?_, ?_, p.maxOpen_events⟩
  · rw [p.events_eq_walk]
    exact Node.map_event?_visits rfl
  · rw [p.events_eq_walk, Node.filterMap_entered?_walk]
  · rw [p.events_eq_walk, Node.filterMap_left?_walk]

end ImpFront
