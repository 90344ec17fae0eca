import PhpAudit.Proofs.ReceiverCalls
import PhpAudit.Proofs.StatementFolds

/-!
Walks over statements do the same on a sealed tree: following the types of variables, adding up the
branch graph and counting paths. As folds they agree on a list of statements as soon as they agree
on its members.
-/

namespace PhpAudit

/-- A fold does the same on changed members if each of them has the same effect as before. -/
theorem foldl_map_eq_of_forall {State Item : Type} {step : State → Item → State}
    {change : Item → Item} {items : List Item}
    (same : ∀ item ∈ items, ∀ state, step state (change item) = step state item) (state : State) :
    (items.map change).foldl step state = items.foldl step state := by
  induction items generalizing state with
  | nil => rfl
  | cons item rest ih =>
      rw [List.map_cons, List.foldl_cons, List.foldl_cons, same item (List.mem_cons_self ..),
        ih fun other member => same other (List.mem_cons_of_mem item member)]

namespace Tracker

variable (scope : Scope)

@[simp] theorem resolve_sealed (tracker : Tracker) (expression : Expr) :
    tracker.resolve scope expression.sealed = tracker.resolve scope expression := by
  simp only [resolve, scope.calls_sealed]

@[simp] theorem resolveAll_sealed (tracker : Tracker) (expressions : List Expr) :
    tracker.resolveAll scope (expressions.map Expr.sealed) =
      tracker.resolveAll scope expressions :=
  foldl_map_eq_of_forall (fun expression _ tracker => tracker.resolve_sealed scope expression)
    tracker

@[simp] theorem perform_sealed (tracker : Tracker) (expression : Expr) :
    tracker.perform scope expression.sealed = tracker.perform scope expression := by
  have resolved := tracker.resolve_sealed scope expression
  cases expression with
  | assignment span target operator value byRef =>
      cases operator with
      | assign =>
          simp only [Expr.sealed, perform, assign, scope.typeOf_sealed, resolve_sealed]
          cases target <;> rfl
      | _ => exact resolved
  | _ => exact resolved

/-- Walking over a statement does not look into its scopes. -/
theorem walk_sealed (tracker : Tracker) (statement : Stmt) :
    walk scope tracker statement.sealed = walk scope tracker statement := by
  induction statement using Stmt.induction_on_children generalizing tracker with
  | step statement ih =>
      cases statement with
      | expression span value => exact tracker.perform_sealed scope value
      | returnValue span value => cases value <;> simp [Stmt.sealed, walk]
      | echo span values => exact tracker.resolveAll_sealed scope values
      | ifElse span condition body elseIfs otherwise =>
          simp only [Stmt.children, List.mem_append, List.mem_flatMap] at ih
          simp only [Stmt.sealed, walk, resolve_sealed, walkBody_eq_foldl, walkElseIfs_eq_foldl,
            walkElse_eq_foldl, sealedBody_statements, sealedElseIfs_eq_map, sealedElse_eq_map,
            Option.toList_map]
          rw [foldl_map_eq_of_forall, foldl_map_eq_of_forall, foldl_map_eq_of_forall]
          · exact fun inner member tracker => ih inner (.inl (.inl member)) tracker
          · intro clause present tracker
            simp only [sealedElseIf_condition, sealedElseIf_body, sealedBody_statements,
              resolve_sealed]
            exact foldl_map_eq_of_forall (fun inner member tracker =>
              ih inner (.inl (.inr ⟨clause, present, member⟩)) tracker) _
          · intro clause present tracker
            simp only [sealedElseClause_body, sealedBody_statements]
            exact foldl_map_eq_of_forall (fun inner member tracker =>
              ih inner (.inr ⟨clause, present, member⟩) tracker) _
      | whileLoop span condition body =>
          simp only [Stmt.sealed, walk, resolve_sealed, walkBody_eq_foldl, sealedBody_statements]
          exact foldl_map_eq_of_forall (fun inner member tracker => ih inner member tracker) _
      | forLoop span initializers conditions steps body =>
          simp only [Stmt.sealed, walk, ← List.map_append, resolveAll_sealed, walkBody_eq_foldl,
            sealedBody_statements]
          exact foldl_map_eq_of_forall (fun inner member tracker => ih inner member tracker) _
      | foreachLoop span subject key value body byRef =>
          simp only [Stmt.sealed, walk, resolve_sealed, walkBody_eq_foldl, sealedBody_statements]
          exact foldl_map_eq_of_forall (fun inner member tracker => ih inner member tracker) _
      | doWhile span body condition =>
          simp only [Stmt.sealed, walk, resolve_sealed, ih body (List.mem_singleton_self body)]
      | switch span subject cases =>
          simp only [Stmt.children, List.mem_flatMap] at ih
          simp only [Stmt.sealed, walk, resolve_sealed, walkCases_eq_foldl, sealedCases_eq_map]
          rw [foldl_map_eq_of_forall]
          intro clause present tracker
          simp only [sealedCase_statements, sealedCase_condition, Option.toList_map,
            resolveAll_sealed]
          exact foldl_map_eq_of_forall (fun inner member tracker =>
            ih inner ⟨clause, present, member⟩ tracker) _
      | tryCatch span content catches finallyBlock =>
          simp only [Stmt.children, List.mem_append, List.mem_flatMap] at ih
          simp only [Stmt.sealed, walk, walkBlock_eq_foldl, walkCatches_eq_foldl,
            walkFinally_eq_foldl, sealedBlock_statements, sealedCatches_eq_map,
            sealedOptionBlock_eq_map, Option.toList_map]
          rw [foldl_map_eq_of_forall, foldl_map_eq_of_forall, foldl_map_eq_of_forall]
          · exact fun inner member tracker => ih inner (.inl (.inl member)) tracker
          · intro clause present tracker
            simp only [sealedCatch_block, sealedBlock_statements]
            exact foldl_map_eq_of_forall (fun inner member tracker =>
              ih inner (.inl (.inr ⟨clause, present, member⟩)) tracker) _
          · intro last present tracker
            simp only [sealedBlock_statements]
            exact foldl_map_eq_of_forall (fun inner member tracker =>
              ih inner (.inr ⟨last, present, member⟩) tracker) _
      | block content =>
          simp only [Stmt.sealed, walk, walkBlock_eq_foldl, sealedBlock_statements]
          exact foldl_map_eq_of_forall (fun inner member tracker => ih inner member tracker) _
      | _ => rfl

theorem walkAll_sealed (tracker : Tracker) (statements : List Stmt) :
    walkAll scope tracker (statements.map Stmt.sealed) = walkAll scope tracker statements := by
  rw [walkAll_eq_foldl, walkAll_eq_foldl,
    foldl_map_eq_of_forall fun statement _ tracker => walk_sealed scope tracker statement]

end Tracker

@[simp] theorem Body.sealed_delimited (body : Body Stmt) :
    (sealedBody body).delimited = body.delimited := by
  rcases body with ⟨_⟩ | ⟨span, statements⟩
  · rename_i statement
    cases statement <;> rfl
  · rfl

namespace BranchGraph

theorem visit_sealed (graph : BranchGraph) (statement : Stmt) :
    graph.visit statement.sealed = graph.visit statement := by
  induction statement using Stmt.induction_on_children generalizing graph with
  | step statement ih =>
      cases statement with
      | ifElse span condition body elseIfs otherwise =>
          simp only [Stmt.children, List.mem_append, List.mem_flatMap] at ih
          simp only [Stmt.sealed, visit, Body.sealed_delimited, visitBody_eq_foldl,
            visitElse_eq_foldl, sealedBody_statements, sealedElse_eq_map, Option.toList_map]
          have inBody : ∀ graph, (body.statements.map Stmt.sealed).foldl visit graph =
              body.statements.foldl visit graph := fun graph =>
            foldl_map_eq_of_forall
              (fun inner member graph => ih inner (.inl (.inl member)) graph) graph
          rw [inBody, inBody, foldl_map_eq_of_forall]
          intro clause present graph
          simp only [sealedElseClause_body, sealedBody_statements]
          exact foldl_map_eq_of_forall (fun inner member graph =>
            ih inner (.inr ⟨clause, present, member⟩) graph) _
      | whileLoop span condition body =>
          simp only [Stmt.sealed, visit, visitBody_eq_foldl, sealedBody_statements]
          exact foldl_map_eq_of_forall (fun inner member graph => ih inner member graph) _
      | block content =>
          simp only [Stmt.sealed, visit, visitBlock_eq_foldl, sealedBlock_statements]
          exact foldl_map_eq_of_forall (fun inner member graph => ih inner member graph) _
      | _ => rfl

end BranchGraph

theorem branchScore_sealed (statements : List Stmt) :
    branchScore (statements.map Stmt.sealed) = branchScore statements := by
  simp only [branchScore, BranchGraph.consume_eq_foldl]
  rw [foldl_map_eq_of_forall fun statement _ graph => graph.visit_sealed statement]

namespace PathCount

theorem visit_sealed (count : Nat) (statement : Stmt) :
    visit count statement.sealed = visit count statement := by
  induction statement using Stmt.induction_on_children generalizing count with
  | step statement ih =>
      cases statement with
      | ifElse span condition body elseIfs otherwise =>
          simp only [Stmt.children, List.mem_append, List.mem_flatMap] at ih
          simp only [Stmt.sealed, visit, visitBody_eq_foldl, visitElseIfs_eq_foldl,
            visitElse_eq_foldl, sealedBody_statements, sealedElseIfs_eq_map, sealedElse_eq_map,
            Option.toList_map]
          rw [foldl_map_eq_of_forall, foldl_map_eq_of_forall, foldl_map_eq_of_forall]
          · exact fun inner member count => ih inner (.inl (.inl member)) count
          · intro clause present count
            simp only [sealedElseIf_body, sealedBody_statements]
            exact foldl_map_eq_of_forall (fun inner member count =>
              ih inner (.inl (.inr ⟨clause, present, member⟩)) count) _
          · intro clause present count
            simp only [sealedElseClause_body, sealedBody_statements]
            exact foldl_map_eq_of_forall (fun inner member count =>
              ih inner (.inr ⟨clause, present, member⟩) count) _
      | whileLoop span condition body =>
          simp only [Stmt.sealed, visit, visitBody_eq_foldl, sealedBody_statements]
          exact foldl_map_eq_of_forall (fun inner member count => ih inner member count) _
      | block content =>
          simp only [Stmt.sealed, visit, visitBlock_eq_foldl, sealedBlock_statements]
          exact foldl_map_eq_of_forall (fun inner member count => ih inner member count) _
      | _ => rfl

end PathCount

theorem pathCount_sealed (statements : List Stmt) :
    pathCount (statements.map Stmt.sealed) = pathCount statements := by
  simp only [pathCount, PathCount.consume_eq_foldl]
  rw [foldl_map_eq_of_forall fun statement _ count => PathCount.visit_sealed count statement]

end PhpAudit
