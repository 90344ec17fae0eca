import PhpAudit.Tree.Walk

/-!
Traversals driven by a stack visit a tree in pre-order. A node comes first, then everything inside
each of its direct parts, one part after the other, so that statements about all visited nodes are
proved by going from a node to its direct parts.
-/

namespace PhpAudit

/-- A visit of the nodes on a stack that replaces the top node by the parts directly inside it and
makes the stack lighter by that. -/
structure StackVisit {Node : Type} (visit : List Node → List Node) (inside : Node → List Node)
    (weight : List Node → Nat) : Prop where
  empty : visit [] = []
  step : ∀ node rest, visit (node :: rest) = node :: visit (inside node ++ rest)
  lighter : ∀ node rest, weight (inside node ++ rest) < weight (node :: rest)

namespace StackVisit

variable {Node : Type} {visit : List Node → List Node} {inside : Node → List Node}
  {weight : List Node → Nat}

theorem append (visits : StackVisit visit inside weight) (first second : List Node) :
    visit (first ++ second) = visit first ++ visit second := by
  generalize size : weight first = bound
  induction bound using Nat.strongRecOn generalizing first with
  | ind bound ih =>
      cases first with
      | nil => simp [visits.empty]
      | cons node rest =>
          have smaller := visits.lighter node rest
          rw [List.cons_append, visits.step, visits.step, ← List.append_assoc,
            ih _ (by omega) (inside node ++ rest) rfl, List.cons_append]

theorem eq_flatMap (visits : StackVisit visit inside weight) (stack : List Node) :
    visit stack = stack.flatMap fun node => visit [node] := by
  induction stack with
  | nil => exact visits.empty
  | cons node rest ih =>
      rw [← List.singleton_append, visits.append, ih, List.flatMap_append]
      simp

theorem singleton (visits : StackVisit visit inside weight) (node : Node) :
    visit [node] = node :: (inside node).flatMap fun part => visit [part] := by
  rw [visits.step, List.append_nil, visits.eq_flatMap]

theorem induction (visits : StackVisit visit inside weight) {motive : Node → Prop}
    (step : ∀ node, (∀ part ∈ inside node, motive part) → motive node) (node : Node) :
    motive node := by
  -- A node and the rest of its stack follow from the lighter stack of the next step.
  have all : ∀ bound stack, weight stack = bound → ∀ member ∈ stack, motive member := by
    intro bound
    induction bound using Nat.strongRecOn with
    | ind bound ih =>
        intro stack size member present
        cases stack with
        | nil => cases present
        | cons top rest =>
            have smaller := visits.lighter top rest
            have next := ih _ (by omega) (inside top ++ rest) rfl
            rcases List.mem_cons.mp present with same | later
            · subst same
              exact step member fun part inner => next part (List.mem_append_left rest inner)
            · exact next member (List.mem_append_right (inside top) later)
  exact all _ [node] rfl node (List.mem_singleton_self node)

end StackVisit

namespace Expr

theorem walkStack_visit : StackVisit walkStack subexpressions weight where
  empty := by rw [walkStack]
  step expression rest := by rw [walkStack]
  lighter expression rest := by
    have smaller := weight_subexpressions expression
    simp only [weight_append, weight_cons]
    omega

/-- A walk is an expression followed by the walks of its direct parts. -/
theorem walk_eq (expression : Expr) :
    expression.walk = expression :: expression.subexpressions.flatMap walk :=
  walkStack_visit.singleton expression

/-- What holds of an expression whenever it holds of its direct parts holds of every expression. -/
theorem induction_on_parts {motive : Expr → Prop}
    (step : ∀ expression, (∀ inner ∈ expression.subexpressions, motive inner) → motive expression)
    (expression : Expr) : motive expression :=
  walkStack_visit.induction step expression

end Expr

namespace Stmt

def isPackage : Stmt → Bool
  | .package _ _ _ _ => true
  | _ => false

theorem flattenStack_visit : StackVisit flattenStack children weight where
  empty := by rw [flattenStack]
  step statement rest := by rw [flattenStack]
  lighter statement rest := by
    have smaller := weight_children statement
    simp only [weight_append, weight_cons]
    omega

/-- A flattening is a statement followed by the flattenings of its children. -/
theorem flatten_eq (statement : Stmt) :
    statement.flatten = statement :: statement.children.flatMap flatten :=
  flattenStack_visit.singleton statement

/-- What holds of a statement whenever it holds of its children holds of every statement. -/
theorem induction_on_children {motive : Stmt → Prop}
    (step : ∀ statement, (∀ inner ∈ statement.children, motive inner) → motive statement)
    (statement : Stmt) : motive statement :=
  flattenStack_visit.induction step statement

theorem sizeOf_le_weight {statements : List Stmt} {inner : Stmt} (member : inner ∈ statements) :
    sizeOf inner ≤ weight statements := by
  induction statements with
  | nil => cases member
  | cons first rest ih =>
      rw [weight_cons]
      rcases List.mem_cons.mp member with rfl | later
      · omega
      · have below := ih later
        omega

theorem sizeOf_lt_of_mem_children {statement inner : Stmt} (child : inner ∈ statement.children) :
    sizeOf inner < sizeOf statement :=
  Nat.lt_of_le_of_lt (sizeOf_le_weight child) (weight_children statement)

end Stmt

end PhpAudit
