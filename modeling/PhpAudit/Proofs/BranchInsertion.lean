import PhpAudit.Proofs.BranchOrder

/-!
Adding a statement to a method body. Wherever the branch graph looks, a statement that is put there
changes the score by what it scores by itself, whatever stands around it. A branch brings at least
one node, but every leaf in it takes one away again: so the score falls if the branch has more leaves
than nodes, and only then.
-/

namespace PhpAudit

mutual

/-- The second statement is the first one with a statement put into one of the lists in it that the
branch graph looks into: no `elseif` is one of them, and an `else` only after a bare body. -/
inductive Stmt.Gains (added : Stmt) : Stmt → Stmt → Prop
  | block {span : Span} {before after : List Stmt} (inside : Statements.Gains added before after) :
      Stmt.Gains added (.block ⟨span, before⟩) (.block ⟨span, after⟩)
  | ifBody {span : Span} {condition : Expr} {before after : Body Stmt}
      {elseIfs : List (ElseIf Expr Stmt)} {otherwise : Option (Else Stmt)}
      (inside : Body.Gains added before after) :
      Stmt.Gains added (.ifElse span condition before elseIfs otherwise)
        (.ifElse span condition after elseIfs otherwise)
  | otherwise {span clauseSpan : Span} {condition : Expr} {body before after : Body Stmt}
      {elseIfs : List (ElseIf Expr Stmt)} (bare : body.delimited = false)
      (inside : Body.Gains added before after) :
      Stmt.Gains added (.ifElse span condition body elseIfs (some ⟨clauseSpan, before⟩))
        (.ifElse span condition body elseIfs (some ⟨clauseSpan, after⟩))
  | whileBody {span : Span} {condition : Expr} {before after : Body Stmt}
      (inside : Body.Gains added before after) :
      Stmt.Gains added (.whileLoop span condition before) (.whileLoop span condition after)

inductive Body.Gains (added : Stmt) : Body Stmt → Body Stmt → Prop
  | single {before after : Stmt} (inside : Stmt.Gains added before after) :
      Body.Gains added (.single before) (.single after)
  | colon {span : Span} {before after : List Stmt} (inside : Statements.Gains added before after) :
      Body.Gains added (.colon span before) (.colon span after)

/-- The statement is put between two others of the list, at one of its ends, or into a statement of
the list. -/
inductive Statements.Gains (added : Stmt) : List Stmt → List Stmt → Prop
  | here (left right : List Stmt) : Statements.Gains added (left ++ right) (left ++ added :: right)
  | inside {before after : Stmt} {left right : List Stmt} (inside : Stmt.Gains added before after) :
      Statements.Gains added (left ++ before :: right) (left ++ after :: right)

end

namespace BranchGraph

theorem add_right_comm (first second third : BranchGraph) :
    first + second + third = first + third + second := by
  simp only [add_eq, mk.injEq]
  refine ⟨?_, ?_, ?_⟩ <;> exact Nat.add_right_comm _ _ _

theorem score_add (first second : BranchGraph) :
    (first + second).score = first.score + second.score := by
  simp only [add_eq, score]
  omega

/-- What was counted before stays what it was. -/
theorem consume_add (graph before : BranchGraph) (statements : List Stmt) :
    (graph + before).consume statements = graph.consume statements + before := by
  rw [consume_eq_add, graph.consume_eq_add, add_right_comm]

theorem visitBody_eq_consume (graph : BranchGraph) (body : Body Stmt) :
    graph.visitBody body = graph.consume body.statements := by
  rw [visitBody_eq_foldl, consume_eq_foldl]

theorem visitElse_add (graph before : BranchGraph) (otherwise : Option (Else Stmt)) :
    (graph + before).visitElse otherwise = graph.visitElse otherwise + before := by
  cases otherwise with
  | none => rfl
  | some clause =>
      cases clause
      simp only [visitElse, visitElseBody, visitBody_eq_consume, consume_add]

end BranchGraph

/-- The second statement counts for as much more as the graph of what was added. -/
structure Stmt.Heavier (gain : BranchGraph) (before after : Stmt) : Prop where
  isBlock : after.isBlock = before.isBlock
  visit : ∀ graph : BranchGraph, graph.visit after = graph.visit before + gain

structure Body.Heavier (gain : BranchGraph) (before after : Body Stmt) : Prop where
  delimited : after.delimited = before.delimited
  visit : ∀ graph : BranchGraph, graph.visitBody after = graph.visitBody before + gain

def Statements.Heavier (gain : BranchGraph) (before after : List Stmt) : Prop :=
  ∀ graph : BranchGraph, graph.consume after = graph.consume before + gain

namespace Stmt.Heavier

variable {gain : BranchGraph} {span : Span} {condition : Expr} {before after : Body Stmt}

theorem ifBody {elseIfs : List (ElseIf Expr Stmt)} {otherwise : Option (Else Stmt)}
    (heavier : Body.Heavier gain before after) :
    Heavier gain (.ifElse span condition before elseIfs otherwise)
      (.ifElse span condition after elseIfs otherwise) := by
  refine ⟨rfl, fun graph => ?_⟩
  simp only [BranchGraph.visit, heavier.delimited, heavier.visit]
  split
  · rfl
  · exact BranchGraph.visitElse_add _ _ _

/-- The delimited body of a conditional would hide its `else`. -/
theorem otherwise {clauseSpan : Span} {body : Body Stmt} {elseIfs : List (ElseIf Expr Stmt)}
    (bare : body.delimited = false) (heavier : Body.Heavier gain before after) :
    Heavier gain (.ifElse span condition body elseIfs (some ⟨clauseSpan, before⟩))
      (.ifElse span condition body elseIfs (some ⟨clauseSpan, after⟩)) := by
  refine ⟨rfl, fun graph => ?_⟩
  simp only [BranchGraph.visit, bare, Bool.false_eq_true, if_false, BranchGraph.visitElse,
    BranchGraph.visitElseBody, heavier.visit]

end Stmt.Heavier

namespace Statements.Heavier

theorem here (added : Stmt) (left right : List Stmt) :
    Heavier (({} : BranchGraph).consume [added]) (left ++ right) (left ++ added :: right) := by
  intro graph
  have front : (left ++ added :: right).Perm ([added] ++ (left ++ right)) := List.perm_middle
  calc graph.consume (left ++ added :: right)
      = graph.consume ([added] ++ (left ++ right)) := BranchGraph.tally.consume_perm front graph
    _ = (graph.consume [added]).consume (left ++ right) :=
        BranchGraph.tally.consume_append graph [added] (left ++ right)
    _ = graph.consume (left ++ right) + ({} : BranchGraph).consume [added] := by
        rw [graph.consume_eq_add [added], BranchGraph.consume_add]

theorem inside {gain : BranchGraph} {before after : Stmt} {left right : List Stmt}
    (heavier : Stmt.Heavier gain before after) :
    Heavier gain (left ++ before :: right) (left ++ after :: right) := by
  intro graph
  simp only [BranchGraph.consume_eq_foldl, List.foldl_append, List.foldl_cons, heavier.visit]
  simp only [← BranchGraph.consume_eq_foldl, BranchGraph.consume_add]

end Statements.Heavier

/-- However deep a statement is put, the graph gains the graph of that statement: the cases are those
of the relation. -/
theorem Statements.Gains.heavier {added : Stmt} {before after : List Stmt}
    (gains : Statements.Gains added before after) :
    Heavier (({} : BranchGraph).consume [added]) before after := by
  refine @Statements.Gains.rec added
    (fun before after _ => Stmt.Heavier (({} : BranchGraph).consume [added]) before after)
    (fun before after _ => Body.Heavier (({} : BranchGraph).consume [added]) before after)
    (fun before after _ => Statements.Heavier (({} : BranchGraph).consume [added]) before after)
    ?block ?ifBody ?otherwise ?whileBody ?single ?colon ?here ?inside before after gains
  case block => exact fun _ heavier => ⟨rfl, fun graph => heavier graph⟩
  case ifBody => exact fun _ heavier => .ifBody heavier
  case otherwise => exact fun bare _ heavier => .otherwise bare heavier
  case whileBody => exact fun _ heavier => ⟨rfl, fun graph => heavier.visit _⟩
  case single =>
    refine fun _ heavier => ⟨?_, fun graph => heavier.visit graph⟩
    rw [Body.delimited_single, Body.delimited_single, heavier.isBlock]
  case colon => exact fun _ heavier => ⟨rfl, fun graph => heavier graph⟩
  case here => exact fun left right => .here added left right
  case inside => exact fun _ heavier => .inside heavier

/-- The score of one statement: the nodes it brings, less the leaves that the graph meets in it. -/
theorem branchScore_singleton (statement : Stmt) :
    let met := statement.visited BranchGraph.enters
    branchScore [statement] =
      ((met.countP Stmt.isIf + met.countP Stmt.isBareIf + met.countP Stmt.isWhile : Nat) : Int) -
        (met.countP fun inner => !inner.isOpen : Nat) := by
  intro met
  have counted : ({} : BranchGraph).consume [statement] = met.foldl BranchGraph.count {} :=
    BranchGraph.tally.consume_singleton {} statement
  rw [branchScore, counted, BranchGraph.foldl_count, BranchGraph.score]
  simp only [Nat.zero_add]
  omega

theorem Stmt.countP_branches_visited {branch : Stmt} (branches : branch.branches = true) :
    0 < (branch.visited BranchGraph.enters).countP Stmt.isIf +
      (branch.visited BranchGraph.enters).countP Stmt.isWhile := by
  rw [Stmt.visited_eq, countP_cons_toNat, countP_cons_toNat]
  rcases Bool.or_eq_true_iff.mp branches with isIf | isWhile
  · rw [isIf, Bool.toNat_true]
    omega
  · rw [isWhile, Bool.toNat_true]
    omega

/-- A branch that is put into a list that the graph looks into, at any depth, changes the score by
the score of the branch: its nodes less its leaves. So the score falls exactly if the branch has more
leaves than nodes, and it rises if there are no leaves. -/
theorem branchScore_of_gains {branch : Stmt} (branches : branch.branches = true)
    {body grown : List Stmt} (gains : Statements.Gains branch body grown) :
    let met := branch.visited BranchGraph.enters
    let nodes := met.countP Stmt.isIf + met.countP Stmt.isBareIf + met.countP Stmt.isWhile
    let leaves := met.countP fun inner => !inner.isOpen
    branchScore grown = branchScore body + branchScore [branch] ∧
      branchScore [branch] = (nodes : Int) - (leaves : Int) ∧
      (branchScore body ≤ branchScore grown ↔ leaves ≤ nodes) ∧
      (leaves = 0 → branchScore body < branchScore grown) := by
  intro met nodes leaves
  have sum : branchScore grown = branchScore body + branchScore [branch] := by
    rw [branchScore, gains.heavier, BranchGraph.score_add]
    rfl
  have own : branchScore [branch] = (nodes : Int) - (leaves : Int) := branchScore_singleton branch
  have some : 0 < met.countP Stmt.isIf + met.countP Stmt.isWhile :=
    Stmt.countP_branches_visited branches
  have more : 0 < nodes := by omega
  refine ⟨sum, own, ?_, ?_⟩ <;> omega

/-- A loop with two calls in it is put into the `else` of a bare conditional, inside a block: two
leaves and one node. -/
theorem branchScore_of_gains_inElse :
    let call : Stmt := .expression {} (.call {} (.name {} "run") [])
    let loop : Stmt := .whileLoop {} (.var {} "$a") (.single (.block ⟨{}, [call, call]⟩))
    let body (statements : List Stmt) : List Stmt := [call, .ifElse {} (.var {} "$b")
      (.single call) [] (some ⟨{}, .single (.block ⟨{}, statements⟩)⟩)]
    loop.branches = true ∧ Statements.Gains loop (body [call]) (body [call, loop]) ∧
      branchScore (body [call, loop]) = branchScore (body [call]) + branchScore [loop] ∧
      branchScore (body [call, loop]) = -2 ∧ branchScore [loop] = -1 := by
  intro call loop body
  have gains : Statements.Gains loop (body [call]) (body [call, loop]) :=
    @Statements.Gains.inside loop _ _ [call] [] (.otherwise rfl (.single (.block (.here [call] []))))
  exact ⟨rfl, gains, (branchScore_of_gains rfl gains).1, by decide, by decide⟩

/-- Not every branch leaves the score as high as it was: in an empty body, a conditional with two
calls brings one node and two leaves. -/
theorem branchScore_falls_by_branch :
    let call : Stmt := .expression {} (.call {} (.name {} "run") [])
    let branch : Stmt := .ifElse {} (.var {} "$a") (.single (.block ⟨{}, [call, call]⟩)) [] none
    branch.branches = true ∧ Statements.Gains branch [] [branch] ∧
      branchScore [] = 0 ∧ branchScore [branch] = -1 ∧
      ¬ ∀ (branch : Stmt) (body grown : List Stmt), branch.branches = true →
        Statements.Gains branch body grown → branchScore body ≤ branchScore grown := by
  intro call branch
  have gains : Statements.Gains branch [] [branch] := .here [] []
  have empty : branchScore [] = 0 := rfl
  have lower : branchScore [branch] = -1 := by decide
  refine ⟨rfl, gains, empty, lower, fun monotone => ?_⟩
  have kept := monotone branch [] [branch] rfl gains
  omega

end PhpAudit
