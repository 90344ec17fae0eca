import Mathlib.Data.List.Perm.Basic
import Mathlib.Logic.Relation
import Mathlib.Data.Nat.Basic
import Mathlib.Order.Basic
import PhpAudit.Proofs.BranchCounts
import PhpAudit.Proofs.SealedWalks

/-!
The measures of branching add up, and the order of statements does not matter to them. Whichever
pending statement is taken next, the counters only grow and end at the same values; and putting the
statements of one list into another order, at any depth, leaves both measures as they were.
-/

namespace PhpAudit

namespace Tally

variable {Counters : Type} (tally : Tally Counters)

theorem consume_append (counters : Counters) (first second : List Stmt) :
    tally.consume counters (first ++ second) =
      tally.consume (tally.consume counters first) second := by
  simp only [tally.consume_eq_foldl, List.flatMap_append, List.foldl_append]

theorem consume_perm {first second : List Stmt} (permuted : first.Perm second)
    (counters : Counters) :
    tally.consume counters first = tally.consume counters second := by
  have : RightCommutative tally.count := ⟨tally.count_comm⟩
  rw [tally.consume_eq_foldl, tally.consume_eq_foldl]
  exact (permuted.flatMap_right _).foldl_eq counters

/-- One step of a measure takes any of the pending statements, counts it, and leaves the statements
it enters in its place. -/
inductive Step : Counters × List Stmt → Counters × List Stmt → Prop
  | take (counters : Counters) (before : List Stmt) (statement : Stmt) (after : List Stmt) :
      Step (counters, before ++ statement :: after)
        (tally.count counters statement,
          before ++ statement.entered tally.enters ++ after)

/-- What is counted at the end is the same before and after a step. -/
theorem Step.consume_eq {tally : Tally Counters} {first second : Counters × List Stmt}
    (step : tally.Step first second) :
    tally.consume first.1 first.2 = tally.consume second.1 second.2 := by
  obtain ⟨counters, before, statement, after⟩ := step
  have front : (before ++ statement :: after).Perm (statement :: (before ++ after)) :=
    List.perm_middle
  have entered : (before ++ statement.entered tally.enters ++ after).Perm
      (statement.entered tally.enters ++ (before ++ after)) := by
    rw [← List.append_assoc]
    exact (List.perm_append_comm).append_right after
  calc tally.consume counters (before ++ statement :: after)
      = tally.consume counters (statement :: (before ++ after)) := tally.consume_perm front _
    _ = tally.consume (tally.count counters statement)
          (statement.entered tally.enters ++ (before ++ after)) := by
        rw [tally.consume_cons, ← tally.consume_append]
    _ = tally.consume (tally.count counters statement)
          (before ++ statement.entered tally.enters ++ after) :=
        (tally.consume_perm entered _).symm

theorem consume_eq_of_steps {first second : Counters × List Stmt}
    (steps : Relation.ReflTransGen tally.Step first second) :
    tally.consume first.1 first.2 = tally.consume second.1 second.2 := by
  induction steps with
  | refl => rfl
  | tail _ step ih => exact ih.trans step.consume_eq

theorem steps_of_forall {statements : List Stmt}
    (each : ∀ statement ∈ statements, ∀ counters rest, Relation.ReflTransGen tally.Step
      (counters, statement :: rest) (tally.consume counters [statement], rest))
    (counters : Counters) (rest : List Stmt) :
    Relation.ReflTransGen tally.Step (counters, statements ++ rest)
      (tally.consume counters statements, rest) := by
  induction statements generalizing counters with
  | nil =>
      rw [tally.consume_nil]
      exact .refl
  | cons statement others ih =>
      obtain ⟨first, later⟩ := List.forall_mem_cons.mp each
      have split := tally.consume_append counters [statement] others
      rw [List.singleton_append] at split
      rw [split]
      exact (first counters (others ++ rest)).trans (ih later _)

theorem steps_singleton (counters : Counters) (statement : Stmt) (rest : List Stmt) :
    Relation.ReflTransGen tally.Step (counters, statement :: rest)
      (tally.consume counters [statement], rest) := by
  induction statement using Stmt.induction_on_children generalizing counters rest with
  | step statement ih =>
      have taken : tally.Step (counters, statement :: rest)
          (tally.count counters statement, statement.entered tally.enters ++ rest) :=
        .take counters [] statement rest
      rw [tally.consume_cons, tally.consume_nil]
      exact .head taken (tally.steps_of_forall (fun inner member counters rest =>
        ih inner (Stmt.mem_children_of_mem_entered member) counters rest) _ _)

/-- Some order of taking the statements is the one of the definition. -/
theorem steps_consume (counters : Counters) (statements : List Stmt) :
    Relation.ReflTransGen tally.Step (counters, statements)
      (tally.consume counters statements, []) := by
  have steps : Relation.ReflTransGen tally.Step (counters, statements ++ [])
      (tally.consume counters statements, []) :=
    tally.steps_of_forall (fun statement _ counters rest =>
      tally.steps_singleton counters statement rest) counters []
  rwa [List.append_nil] at steps

theorem le_of_steps [Preorder Counters]
    (grows : ∀ counters statement, counters ≤ tally.count counters statement)
    {first second : Counters × List Stmt}
    (steps : Relation.ReflTransGen tally.Step first second) : first.1 ≤ second.1 := by
  induction steps with
  | refl => exact le_refl _
  | tail _ step ih =>
      obtain ⟨counters, before, statement, after⟩ := step
      exact ih.trans (grows counters statement)

end Tally

namespace BranchGraph

instance : Add BranchGraph where
  add first second :=
    { nodes := first.nodes + second.nodes
      edges := first.edges + second.edges
      exitPoints := first.exitPoints + second.exitPoints }

theorem add_eq (first second : BranchGraph) : first + second =
    { nodes := first.nodes + second.nodes
      edges := first.edges + second.edges
      exitPoints := first.exitPoints + second.exitPoints } := rfl

/-- Graphs are compared counter by counter. -/
instance : Preorder BranchGraph :=
  Preorder.lift fun graph => (graph.nodes, graph.edges, graph.exitPoints)

theorem le_iff {first second : BranchGraph} : first ≤ second ↔ first.nodes ≤ second.nodes ∧
    first.edges ≤ second.edges ∧ first.exitPoints ≤ second.exitPoints :=
  Iff.rfl

theorem consume_eq_add (graph : BranchGraph) (statements : List Stmt) :
    graph.consume statements = graph + ({} : BranchGraph).consume statements := by
  rw [consume_eq_counts, consume_eq_counts {}, add_eq]
  simp only [Nat.zero_add, Nat.add_zero]

theorem le_count (graph : BranchGraph) (statement : Stmt) : graph ≤ graph.count statement := by
  rw [count_eq, le_iff]
  exact ⟨Nat.le_add_right _ _, Nat.le_add_right _ _, Nat.le_refl _⟩

end BranchGraph

theorem PathCount.consume_eq_add (paths : Nat) (statements : List Stmt) :
    PathCount.consume paths statements = paths + pathCount statements := by
  rw [pathCount, consume_eq_count, consume_eq_count 0, Nat.zero_add]

mutual

/-- The second statement is the first one with a list of statements inside it in another order. What
lies in a scope of its own may change in any way. -/
inductive Stmt.Rearranged : Stmt → Stmt → Prop
  | scopes {first second : Stmt} (same : first.sealed = second.sealed) :
      Stmt.Rearranged first second
  | block {span : Span} {first second : List Stmt} (inside : Statements.Rearranged first second) :
      Stmt.Rearranged (.block ⟨span, first⟩) (.block ⟨span, second⟩)
  | ifBody {span : Span} {condition : Expr} {first second : Body Stmt}
      {elseIfs : List (ElseIf Expr Stmt)} {otherwise : Option (Else Stmt)}
      (inside : Body.Rearranged first second) :
      Stmt.Rearranged (.ifElse span condition first elseIfs otherwise)
        (.ifElse span condition second elseIfs otherwise)
  | elseIf {span clauseSpan : Span} {condition clauseCondition : Expr}
      {body first second : Body Stmt} {before after : List (ElseIf Expr Stmt)}
      {otherwise : Option (Else Stmt)}
      (inside : Body.Rearranged first second) :
      Stmt.Rearranged
        (.ifElse span condition body
          (before ++ ⟨clauseSpan, clauseCondition, first⟩ :: after) otherwise)
        (.ifElse span condition body
          (before ++ ⟨clauseSpan, clauseCondition, second⟩ :: after) otherwise)
  | otherwise {span clauseSpan : Span} {condition : Expr} {body first second : Body Stmt}
      {elseIfs : List (ElseIf Expr Stmt)} (inside : Body.Rearranged first second) :
      Stmt.Rearranged (.ifElse span condition body elseIfs (some ⟨clauseSpan, first⟩))
        (.ifElse span condition body elseIfs (some ⟨clauseSpan, second⟩))
  | whileBody {span : Span} {condition : Expr} {first second : Body Stmt}
      (inside : Body.Rearranged first second) :
      Stmt.Rearranged (.whileLoop span condition first) (.whileLoop span condition second)
  | doBody {span : Span} {condition : Expr} {first second : Stmt}
      (inside : Stmt.Rearranged first second) :
      Stmt.Rearranged (.doWhile span first condition) (.doWhile span second condition)
  | forBody {span : Span} {initializers conditions steps : List Expr} {first second : Body Stmt}
      (inside : Body.Rearranged first second) :
      Stmt.Rearranged (.forLoop span initializers conditions steps first)
        (.forLoop span initializers conditions steps second)
  | foreachBody {span : Span} {subject : Expr} {key : Option Expr} {value : Bool} {byRef : Expr}
      {first second : Body Stmt} (inside : Body.Rearranged first second) :
      Stmt.Rearranged (.foreachLoop span subject key value first byRef)
        (.foreachLoop span subject key value second byRef)
  | switchCase {span caseSpan : Span} {subject : Expr} {condition : Option Expr}
      {before after : List (SwitchCase Expr Stmt)} {first second : List Stmt}
      (inside : Statements.Rearranged first second) :
      Stmt.Rearranged (.switch span subject (before ++ ⟨caseSpan, condition, first⟩ :: after))
        (.switch span subject (before ++ ⟨caseSpan, condition, second⟩ :: after))
  | tryBlock {span blockSpan : Span} {catches : List (Catch Stmt)}
      {finallyBlock : Option (Block Stmt)} {first second : List Stmt}
      (inside : Statements.Rearranged first second) :
      Stmt.Rearranged (.tryCatch span ⟨blockSpan, first⟩ catches finallyBlock)
        (.tryCatch span ⟨blockSpan, second⟩ catches finallyBlock)
  | catchBlock {span clauseSpan blockSpan : Span} {content : Block Stmt} {types : List String}
      {binding : Option String} {before after : List (Catch Stmt)}
      {finallyBlock : Option (Block Stmt)} {first second : List Stmt}
      (inside : Statements.Rearranged first second) :
      Stmt.Rearranged
        (.tryCatch span content
          (before ++ ⟨clauseSpan, types, binding, ⟨blockSpan, first⟩⟩ :: after) finallyBlock)
        (.tryCatch span content
          (before ++ ⟨clauseSpan, types, binding, ⟨blockSpan, second⟩⟩ :: after) finallyBlock)
  | finallyBlock {span blockSpan : Span} {content : Block Stmt} {catches : List (Catch Stmt)}
      {first second : List Stmt} (inside : Statements.Rearranged first second) :
      Stmt.Rearranged (.tryCatch span content catches (some ⟨blockSpan, first⟩))
        (.tryCatch span content catches (some ⟨blockSpan, second⟩))
  | declareBlock {span blockSpan : Span} {directives : List (ConstantEntry Expr)}
      {first second : List Stmt} (inside : Statements.Rearranged first second) :
      Stmt.Rearranged (.declare span directives (some ⟨blockSpan, first⟩))
        (.declare span directives (some ⟨blockSpan, second⟩))
  | package {span : Span} {name : Option String} {braced : Bool} {first second : List Stmt}
      (inside : Statements.Rearranged first second) :
      Stmt.Rearranged (.package span name first braced) (.package span name second braced)
  | method {content : Declaration Expr Stmt} {owner : Method Expr Stmt} {blockSpan : Span}
      {before after : List (Member Expr Stmt)} {first second : List Stmt}
      (inside : Statements.Rearranged first second) :
      Stmt.Rearranged
        (.declaration { content with
          members := before ++ (.method { owner with body := some ⟨blockSpan, first⟩ }) :: after })
        (.declaration { content with
          members := before ++ (.method { owner with body := some ⟨blockSpan, second⟩ }) :: after })

inductive Body.Rearranged : Body Stmt → Body Stmt → Prop
  | single {first second : Stmt} (inside : Stmt.Rearranged first second) :
      Body.Rearranged (.single first) (.single second)
  | colon {span : Span} {first second : List Stmt} (inside : Statements.Rearranged first second) :
      Body.Rearranged (.colon span first) (.colon span second)

/-- A list in another order, or with a rearranged statement in it. -/
inductive Statements.Rearranged : List Stmt → List Stmt → Prop
  | permuted {first second : List Stmt} (order : first.Perm second) :
      Statements.Rearranged first second
  | inside {first second : Stmt} {before after : List Stmt}
      (inside : Stmt.Rearranged first second) :
      Statements.Rearranged (before ++ first :: after) (before ++ second :: after)
  | trans {first second third : List Stmt} (left : Statements.Rearranged first second)
      (right : Statements.Rearranged second third) : Statements.Rearranged first third

end

/-- Two statements are the same to both measures. -/
structure Stmt.SameMeasures (first second : Stmt) : Prop where
  isBlock : first.isBlock = second.isBlock
  visit : ∀ graph : BranchGraph, graph.visit first = graph.visit second
  paths : ∀ count, PathCount.visit count first = PathCount.visit count second

structure Body.SameMeasures (first second : Body Stmt) : Prop where
  delimited : first.delimited = second.delimited
  visit : ∀ graph : BranchGraph, graph.visitBody first = graph.visitBody second
  paths : ∀ count, PathCount.visitBody count first = PathCount.visitBody count second

structure Statements.SameMeasures (first second : List Stmt) : Prop where
  consume : ∀ graph : BranchGraph, graph.consume first = graph.consume second
  paths : ∀ count, PathCount.consume count first = PathCount.consume count second

theorem Stmt.sealed_isBlock (statement : Stmt) : statement.sealed.isBlock = statement.isBlock := by
  cases statement <;> rfl

theorem Body.delimited_single (statement : Stmt) :
    (Body.single statement).delimited = statement.isBlock := by
  cases statement <;> rfl

namespace Stmt.SameMeasures

theorem of_sealed {first second : Stmt} (same : first.sealed = second.sealed) :
    SameMeasures first second := by
  refine ⟨?_, fun graph => ?_, fun count => ?_⟩
  · rw [← first.sealed_isBlock, same, second.sealed_isBlock]
  · rw [← graph.visit_sealed, same, graph.visit_sealed]
  · rw [← PathCount.visit_sealed, same, PathCount.visit_sealed]

theorem ifBody {span : Span} {condition : Expr} {first second : Body Stmt}
    {elseIfs : List (ElseIf Expr Stmt)} {otherwise : Option (Else Stmt)}
    (same : Body.SameMeasures first second) :
    SameMeasures (.ifElse span condition first elseIfs otherwise)
      (.ifElse span condition second elseIfs otherwise) := by
  refine ⟨rfl, fun graph => ?_, fun count => ?_⟩
  · simp only [BranchGraph.visit, same.delimited, same.visit]
  · simp only [PathCount.visit, same.paths]

theorem elseIf {span clauseSpan : Span} {condition clauseCondition : Expr}
    {body first second : Body Stmt} {before after : List (ElseIf Expr Stmt)}
    {otherwise : Option (Else Stmt)} (same : Body.SameMeasures first second) :
    SameMeasures
      (.ifElse span condition body
        (before ++ ⟨clauseSpan, clauseCondition, first⟩ :: after) otherwise)
      (.ifElse span condition body
        (before ++ ⟨clauseSpan, clauseCondition, second⟩ :: after) otherwise) := by
  refine ⟨rfl, fun graph => rfl, fun count => ?_⟩
  have folds : ∀ count, first.statements.foldl PathCount.visit count =
      second.statements.foldl PathCount.visit count := fun count => by
    rw [← PathCount.visitBody_eq_foldl, same.paths, PathCount.visitBody_eq_foldl]
  simp only [PathCount.visit, PathCount.visitElseIfs_eq_foldl, List.foldl_append, List.foldl_cons,
    folds]

theorem otherwise {span clauseSpan : Span} {condition : Expr} {body first second : Body Stmt}
    {elseIfs : List (ElseIf Expr Stmt)} (same : Body.SameMeasures first second) :
    SameMeasures (.ifElse span condition body elseIfs (some ⟨clauseSpan, first⟩))
      (.ifElse span condition body elseIfs (some ⟨clauseSpan, second⟩)) := by
  refine ⟨rfl, fun graph => ?_, fun count => ?_⟩
  · simp only [BranchGraph.visit, BranchGraph.visitElse, BranchGraph.visitElseBody, same.visit]
  · simp only [PathCount.visit, PathCount.visitElse, PathCount.visitElseBody, same.paths]

end Stmt.SameMeasures

theorem Statements.SameMeasures.inside {first second : Stmt} {before after : List Stmt}
    (same : Stmt.SameMeasures first second) :
    SameMeasures (before ++ first :: after) (before ++ second :: after) := by
  constructor
  · intro graph
    simp only [BranchGraph.consume_eq_foldl, List.foldl_append, List.foldl_cons, same.visit]
  · intro count
    simp only [PathCount.consume_eq_foldl, List.foldl_append, List.foldl_cons, same.paths]

/-- No rearrangement is seen by the measures: the cases are those of the relation, and those of
statements that the measures do not look into are all alike. -/
theorem Statements.Rearranged.sameMeasures {first second : List Stmt}
    (rearranged : Statements.Rearranged first second) : SameMeasures first second := by
  refine @Statements.Rearranged.rec
    (fun first second _ => Stmt.SameMeasures first second)
    (fun first second _ => Body.SameMeasures first second)
    (fun first second _ => Statements.SameMeasures first second)
    ?scopes ?block ?ifBody ?elseIf ?otherwise ?whileBody ?_ ?_ ?_ ?_ ?_ ?_ ?_ ?_ ?_ ?_
    ?single ?colon ?permuted ?inside ?trans first second rearranged
  case scopes => exact fun same => .of_sealed same
  case block =>
    exact fun _ same => ⟨rfl, fun graph => same.consume graph, fun count => same.paths count⟩
  case ifBody => exact fun _ same => .ifBody same
  case elseIf => exact fun _ same => .elseIf same
  case otherwise => exact fun _ same => .otherwise same
  case whileBody =>
    exact fun _ same => ⟨rfl, fun graph => same.visit _, fun count => same.paths _⟩
  case single =>
    refine fun _ same => ⟨?_, fun graph => same.visit graph, fun count => same.paths count⟩
    rw [Body.delimited_single, Body.delimited_single, same.isBlock]
  case colon =>
    exact fun _ same => ⟨rfl, fun graph => same.consume graph, fun count => same.paths count⟩
  case permuted =>
    exact fun order => ⟨BranchGraph.tally.consume_perm order, PathCount.tally.consume_perm order⟩
  case inside => exact fun _ same => .inside same
  case trans =>
    exact fun _ _ left right =>
      ⟨fun graph => (left.consume graph).trans (right.consume graph),
        fun count => (left.paths count).trans (right.paths count)⟩
  all_goals exact fun _ _ => ⟨rfl, fun _ => rfl, fun _ => rfl⟩

/-- Consuming one list after another adds up what each of them counts for. While statements are
consumed, one at a time and in whatever order, no counter decreases, and all orders end alike. No
rearrangement of the statements changes a measure. -/
theorem branch_measures_additive_and_order_free (graph : BranchGraph) (paths : Nat)
    (first second : List Stmt) :
    graph.consume (first ++ second) =
      graph + ({} : BranchGraph).consume first + ({} : BranchGraph).consume second ∧
    PathCount.consume paths (first ++ second) = paths + pathCount first + pathCount second ∧
    Relation.ReflTransGen BranchGraph.tally.Step (graph, first) (graph.consume first, []) ∧
    (∀ sooner later, Relation.ReflTransGen BranchGraph.tally.Step (graph, first) sooner →
      Relation.ReflTransGen BranchGraph.tally.Step sooner later →
        sooner.1 ≤ later.1 ∧ later.1.consume later.2 = graph.consume first) ∧
    Relation.ReflTransGen PathCount.tally.Step (paths, first) (PathCount.consume paths first, []) ∧
    (∀ sooner later, Relation.ReflTransGen PathCount.tally.Step (paths, first) sooner →
      Relation.ReflTransGen PathCount.tally.Step sooner later →
        sooner.1 ≤ later.1 ∧
          PathCount.consume later.1 later.2 = PathCount.consume paths first) ∧
    (Statements.Rearranged first second →
      graph.consume first = graph.consume second ∧
      PathCount.consume paths first = PathCount.consume paths second ∧
      branchScore first = branchScore second ∧ pathCount first = pathCount second) := by
  refine ⟨?_, ?_, BranchGraph.tally.steps_consume graph first, ?_,
    PathCount.tally.steps_consume paths first, ?_, ?_⟩
  · rw [← graph.consume_eq_add first, ← BranchGraph.consume_eq_add]
    exact BranchGraph.tally.consume_append graph first second
  · rw [← PathCount.consume_eq_add, ← PathCount.consume_eq_add]
    exact PathCount.tally.consume_append paths first second
  · intro sooner later reached steps
    exact ⟨BranchGraph.tally.le_of_steps BranchGraph.le_count steps,
      (BranchGraph.tally.consume_eq_of_steps (reached.trans steps)).symm⟩
  · intro sooner later reached steps
    exact ⟨PathCount.tally.le_of_steps (fun _ _ => Nat.le_add_right _ _) steps,
      (PathCount.tally.consume_eq_of_steps (reached.trans steps)).symm⟩
  · intro rearranged
    have same := rearranged.sameMeasures
    exact ⟨same.consume graph, same.paths paths, congrArg BranchGraph.score (same.consume {}),
      same.paths 0⟩

/-- Two statements of a block inside an `else` change places. -/
theorem branch_measures_of_swapped_statements :
    let loop : Stmt := .whileLoop {} (.placeholder {}) (.single (.noop {}))
    let branch (statements : List Stmt) : List Stmt := [.ifElse {} (.placeholder {})
      (.single (.noop {})) [] (some ⟨{}, .single (.block ⟨{}, statements⟩)⟩)]
    Statements.Rearranged (branch [loop, .noop {}]) (branch [.noop {}, loop]) ∧
      branchScore (branch [loop, .noop {}]) = branchScore (branch [.noop {}, loop]) ∧
      branchScore (branch [loop, .noop {}]) = 0 ∧
      pathCount (branch [loop, .noop {}]) = pathCount (branch [.noop {}, loop]) ∧
      pathCount (branch [loop, .noop {}]) = 2 := by
  intro loop branch
  have swapped : Statements.Rearranged (branch [loop, .noop {}]) (branch [.noop {}, loop]) :=
    @Statements.Rearranged.inside _ _ [] [] (.otherwise (.single (.block (.permuted (.swap ..)))))
  obtain ⟨_, _, _, _, _, _, same⟩ := branch_measures_additive_and_order_free {} 0
    (branch [loop, .noop {}]) (branch [.noop {}, loop])
  exact ⟨swapped, (same swapped).2.2.1, by decide, (same swapped).2.2.2, by decide⟩

end PhpAudit
