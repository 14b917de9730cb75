import ImpFront.Proofs.Syntax.Members
import ImpFront.Proofs.Syntax.Traversal
/-!
# ImpFront.Proofs.Syntax.Erased

**What does not depend on places.** Erasing the spans of a node erases those of its
children and changes no description, so walks, heights and traces are the same; and
the printer does not look at spans.
-/

namespace ImpFront

/-! ### Nodes -/

/-- A node with all spans erased. -/
def Node.erase : Node → Node
  | program p => program p.erase
  | function f => function f.erase
  | parameter p => parameter p.erase
  | block b => block b.erase
  | statement s => statement s.erase
  | expr e => expr e.erase

theorem Item.node_erase (item : Item) : item.erase.node = item.node.erase := by
  cases item <;> rfl

namespace Node

/-- Erasing a node erases its children. -/
theorem children_erase (n : Node) : n.erase.children = n.children.map erase := by
  cases n with
  | program p =>
    simp only [erase, children, Program.erase, List.map_map]
    exact List.map_congr_left fun item _ => item.node_erase
  | function f =>
    simp [erase, children, Function.erase, Function.comp_def]
  | parameter p => rfl
  | block b =>
    obtain ⟨body, span⟩ := b
    simp [erase, children, Block.erase, Statement.eraseList_eq_map, Function.comp_def]
  | statement s =>
    cases s with
    | declare d =>
      obtain ⟨type, name, value, span⟩ := d
      cases value <;> rfl
    | update u => cases u <;> rfl
    | ifElse condition body otherwise span => cases otherwise <;> rfl
    | forLoop init condition step body span => rfl
    | whileLoop condition body span => rfl
    | ret value span => cases value <;> rfl
    | call c span => rfl
  | expr e =>
    cases e with
    | call callee arguments span =>
      simp [erase, children, Expr.erase, Expr.eraseList_eq_map, Function.comp_def]
    | _ => rfl

theorem describe_erase (n : Node) : n.erase.describe = n.describe := by
  cases n with
  | statement s =>
    cases s with
    | update u => cases u <;> rfl
    | ifElse condition body otherwise span => cases otherwise <;> rfl
    | ret value span => cases value <;> rfl
    | _ => rfl
  | expr e => cases e <;> rfl
  | _ => rfl

theorem height_erase (n : Node) : n.erase.height = n.height := by
  induction n using Node.induct with
  | h n ih =>
    have hmap : (n.children.map erase).map height = n.children.map height := by
      rw [List.map_map]
      exact List.map_congr_left ih
    rw [height_eq, children_erase, hmap, ← height_eq]

theorem preorder_erase (n : Node) : n.erase.preorder = n.preorder.map erase := by
  induction n using Node.induct with
  | h n ih =>
    rw [preorder_eq, preorder_eq n, children_erase, List.map_cons, List.flatMap_map,
      List.map_flatMap, List.flatMap_def, List.flatMap_def, List.map_congr_left ih]

/-- The events of a node in words do not depend on its spans. -/
theorem describe_walk_erase (n : Node) :
    n.erase.walk.map Event.describe = n.walk.map Event.describe := by
  induction n using Node.induct with
  | h n ih =>
    have henter : (Event.enter n.erase).describe = (Event.enter n).describe := by
      rw [Event.describe, Event.describe, describe_erase]
    have hexit : (Event.exit n.erase).describe = (Event.exit n).describe := by
      rw [Event.describe, Event.describe, describe_erase]
    have hparts : ((n.children.map erase).flatMap walk).map Event.describe
        = (n.children.flatMap walk).map Event.describe := by
      rw [List.flatMap_map, List.map_flatMap, List.map_flatMap, List.flatMap_def, List.flatMap_def]
      exact congrArg List.flatten (List.map_congr_left ih)
    rw [walk_eq, walk_eq n, children_erase]
    simp only [around, List.map_append, List.map_cons, List.map_nil, hparts, henter, hexit]

end Node

/-! ### Text -/

namespace Expr

mutual

theorem text_erase : (e : Expr) → e.erase.text = e.text
  | symbol .. | number .. | string .. => rfl
  | not operand _ => by rw [erase, text, text, operand.text_erase]
  | group inner _ => by rw [erase, text, text, inner.text_erase]
  | assign _ value _ => by rw [erase, text, text, value.text_erase]
  | binary _ left right _ => by rw [erase, text, text, left.text_erase, right.text_erase]
  | call _ arguments _ => by rw [erase, text, text, textList_erase arguments]

theorem textList_erase : (es : List Expr) → textList (eraseList es) = textList es
  | [] => rfl
  | [e] => e.text_erase
  | e :: f :: rest => by
    have hrest := textList_erase (f :: rest)
    rw [eraseList, eraseList, textList, textList, e.text_erase, ← hrest, eraseList]

end

end Expr

theorem Declaration.text_erase (d : Declaration) : d.erase.text = d.text := by
  obtain ⟨type, name, value, span⟩ := d
  cases value with
  | none => rfl
  | some value => simp [erase, text, value.text_erase]

theorem Update.text_erase (u : Update) : u.erase.text = u.text := by
  cases u with
  | assign name op value span => rw [erase, text, text, value.text_erase]
  | step name op side span => cases side <;> rfl

theorem Call.text_erase (c : Call) : c.erase.text = c.text := by
  rw [text, text, erase, Expr.textList_erase]

mutual

theorem Statement.text_erase (level : Nat) : (st : Statement) → st.erase.text level = st.text level
  | .declare d => d.text_erase
  | .update u => by rw [Statement.erase, Statement.text, Statement.text, u.text_erase]
  | .ifElse condition body none _ => by
    rw [Statement.erase, Statement.text, Statement.text, condition.text_erase,
      body.text_erase level]
  | .ifElse condition body (some otherwise) _ => by
    rw [Statement.erase, Statement.text, Statement.text, condition.text_erase,
      body.text_erase level, otherwise.text_erase level]
  | .forLoop init condition step body _ => by
    rw [Statement.erase, Statement.text, Statement.text, init.text_erase, condition.text_erase,
      step.text_erase, body.text_erase level]
  | .whileLoop condition body _ => by
    rw [Statement.erase, Statement.text, Statement.text, condition.text_erase,
      body.text_erase level]
  | .ret none _ => rfl
  | .ret (some value) _ => by
    rw [Statement.erase, Option.map_some, Statement.text, Statement.text, value.text_erase]
  | .call c _ => by rw [Statement.erase, Statement.text, Statement.text, c.text_erase]

theorem Block.text_erase (level : Nat) : (b : Block) → b.erase.text level = b.text level
  | ⟨[], _⟩ => rfl
  | ⟨st :: rest, _⟩ => by
    have hlines := Statement.textLines_erase (level + 1) (st :: rest)
    rw [Block.erase, Statement.eraseList, Block.text, Block.text, ← hlines, Statement.eraseList]

theorem Statement.textLines_erase (level : Nat) :
    (body : List Statement) →
      Statement.textLines level (Statement.eraseList body) = Statement.textLines level body
  | [] => rfl
  | st :: rest => by
    rw [Statement.eraseList, Statement.textLines, Statement.textLines, st.text_erase level,
      Statement.textLines_erase level rest]

end

theorem Function.text_erase (f : Function) : f.erase.text = f.text := by
  have hparameters : (f.parameters.map Parameter.erase).map Parameter.text
      = f.parameters.map Parameter.text := by
    rw [List.map_map]
    rfl
  rw [text, text, erase, hparameters, f.body.text_erase 0]

theorem Item.text_erase (item : Item) : item.erase.text = item.text := by
  cases item with
  | global d => exact d.text_erase
  | function f => exact f.text_erase
  | statement st => exact st.text_erase 0

/-! ### Programs -/

namespace Program

variable {p q : Program}

/-- Programs that differ in spans at most have walks of the same height. -/
theorem height_eq_of_erase_eq (h : p.erase = q.erase) :
    (Node.program p).height = (Node.program q).height := by
  rw [← Node.height_erase, ← Node.height_erase (.program q)]
  exact congrArg (fun r => (Node.program r).height) h

/-- Programs that differ in spans at most have the same trace. -/
theorem trace_eq_of_erase_eq (h : p.erase = q.erase) : p.trace = q.trace := by
  rw [trace, trace, p.events_eq_walk, q.events_eq_walk, ← Node.describe_walk_erase,
    ← Node.describe_walk_erase (.program q)]
  exact congrArg (fun r => (Node.program r).walk.map Event.describe) h

/-- Programs that differ in spans at most are printed alike. -/
theorem text_eq_of_erase_eq (h : p.erase = q.erase) : p.text = q.text := by
  have htext (r : Program) : r.erase.text = r.text := by
    have hitems : (r.items.map Item.erase).map (fun item => item.text ++ "\n")
        = r.items.map fun item => item.text ++ "\n" := by
      rw [List.map_map]
      exact List.map_congr_left fun item _ => congrArg (· ++ "\n") item.text_erase
    rw [text, erase, hitems, ← text]
  rw [← htext p, ← htext q, h]

end Program

end ImpFront
