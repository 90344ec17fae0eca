import PhpAudit.Measure.Branching
import PhpAudit.Receiver.Tracker

/-!
Walks over statements as folds. Following the types of variables, adding up the branch graph and
counting paths all hand what they carry from one statement to the next, through the bodies and
clauses of a statement in the order they are written.
-/

namespace PhpAudit

namespace Tracker

variable (scope : Scope)

theorem walkAll_eq_foldl (tracker : Tracker) (statements : List Stmt) :
    walkAll scope tracker statements = statements.foldl (walk scope) tracker := by
  induction statements generalizing tracker with
  | nil => rfl
  | cons statement rest ih => rw [walkAll, ih, List.foldl_cons]

theorem walkBody_eq_foldl (tracker : Tracker) (body : Body Stmt) :
    walkBody scope tracker body = body.statements.foldl (walk scope) tracker := by
  cases body with
  | single statement => rfl
  | colon span statements => exact walkAll_eq_foldl scope tracker statements

theorem walkBlock_eq_foldl (tracker : Tracker) (content : Block Stmt) :
    walkBlock scope tracker content = content.statements.foldl (walk scope) tracker := by
  cases content
  exact walkAll_eq_foldl scope tracker _

theorem walkElseIfs_eq_foldl (tracker : Tracker) (elseIfs : List (ElseIf Expr Stmt)) :
    walkElseIfs scope tracker elseIfs = elseIfs.foldl (fun tracker clause =>
      clause.body.statements.foldl (walk scope) (tracker.resolve scope clause.condition))
        tracker := by
  induction elseIfs generalizing tracker with
  | nil => rfl
  | cons clause rest ih =>
      cases clause
      rw [walkElseIfs, ih, List.foldl_cons, walkElseIf, walkBody_eq_foldl]

theorem walkElse_eq_foldl (tracker : Tracker) (otherwise : Option (Else Stmt)) :
    walkElse scope tracker otherwise = otherwise.toList.foldl (fun tracker clause =>
      clause.body.statements.foldl (walk scope) tracker) tracker := by
  cases otherwise with
  | none => rfl
  | some clause =>
      cases clause
      exact walkBody_eq_foldl scope tracker _

theorem walkCases_eq_foldl (tracker : Tracker) (cases : List (SwitchCase Expr Stmt)) :
    walkCases scope tracker cases = cases.foldl (fun tracker clause =>
      clause.statements.foldl (walk scope)
        (tracker.resolveAll scope clause.condition.toList)) tracker := by
  induction cases generalizing tracker with
  | nil => rfl
  | cons clause rest ih =>
      cases clause
      rw [walkCases, ih, List.foldl_cons, walkCase, walkAll_eq_foldl]

theorem walkCatches_eq_foldl (tracker : Tracker) (catches : List (Catch Stmt)) :
    walkCatches scope tracker catches = catches.foldl (fun tracker clause =>
      clause.block.statements.foldl (walk scope) tracker) tracker := by
  induction catches generalizing tracker with
  | nil => rfl
  | cons clause rest ih =>
      cases clause
      rw [walkCatches, ih, List.foldl_cons, walkCatch, walkBlock_eq_foldl]

theorem walkFinally_eq_foldl (tracker : Tracker) (finallyBlock : Option (Block Stmt)) :
    walkFinally scope tracker finallyBlock = finallyBlock.toList.foldl (fun tracker content =>
      content.statements.foldl (walk scope) tracker) tracker := by
  cases finallyBlock with
  | none => rfl
  | some content => exact walkBlock_eq_foldl scope tracker content

end Tracker

namespace BranchGraph

theorem consume_eq_foldl (graph : BranchGraph) (statements : List Stmt) :
    graph.consume statements = statements.foldl visit graph := by
  induction statements generalizing graph with
  | nil => rfl
  | cons statement rest ih => rw [consume, ih, List.foldl_cons]

theorem visitBody_eq_foldl (graph : BranchGraph) (body : Body Stmt) :
    graph.visitBody body = body.statements.foldl visit graph := by
  cases body with
  | single statement => rfl
  | colon span statements => exact graph.consume_eq_foldl statements

theorem visitBlock_eq_foldl (graph : BranchGraph) (content : Block Stmt) :
    graph.visitBlock content = content.statements.foldl visit graph := by
  cases content
  exact graph.consume_eq_foldl _

theorem visitElse_eq_foldl (graph : BranchGraph) (otherwise : Option (Else Stmt)) :
    graph.visitElse otherwise = otherwise.toList.foldl (fun graph clause =>
      clause.body.statements.foldl visit graph) graph := by
  cases otherwise with
  | none => rfl
  | some clause =>
      cases clause
      exact graph.visitBody_eq_foldl _

end BranchGraph

namespace PathCount

theorem consume_eq_foldl (count : Nat) (statements : List Stmt) :
    consume count statements = statements.foldl visit count := by
  induction statements generalizing count with
  | nil => rfl
  | cons statement rest ih => rw [consume, ih, List.foldl_cons]

theorem visitBody_eq_foldl (count : Nat) (body : Body Stmt) :
    visitBody count body = body.statements.foldl visit count := by
  cases body with
  | single statement => rfl
  | colon span statements => exact consume_eq_foldl count statements

theorem visitBlock_eq_foldl (count : Nat) (content : Block Stmt) :
    visitBlock count content = content.statements.foldl visit count := by
  cases content
  exact consume_eq_foldl count _

theorem visitElseIfs_eq_foldl (count : Nat) (elseIfs : List (ElseIf Expr Stmt)) :
    visitElseIfs count elseIfs = elseIfs.foldl (fun count clause =>
      clause.body.statements.foldl visit count) count := by
  induction elseIfs generalizing count with
  | nil => rfl
  | cons clause rest ih =>
      cases clause
      rw [visitElseIfs, ih, List.foldl_cons, visitElseIf, visitBody_eq_foldl]

theorem visitElse_eq_foldl (count : Nat) (otherwise : Option (Else Stmt)) :
    visitElse count otherwise = otherwise.toList.foldl (fun count clause =>
      clause.body.statements.foldl visit count) count := by
  cases otherwise with
  | none => rfl
  | some clause =>
      cases clause
      exact visitBody_eq_foldl count _

end PathCount

end PhpAudit
