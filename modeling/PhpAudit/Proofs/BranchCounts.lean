import PhpAudit.Proofs.Descendants
import PhpAudit.Proofs.StatementFolds

/-!
The two measures of branching as counts over the flattening. A measure counts a statement and goes
on with some of its parts; so it counts exactly the statements of the flattening that lie, at every
level, in a part it goes on with.
-/

namespace PhpAudit

namespace Stmt

def isIf : Stmt → Bool
  | ifElse _ _ _ _ _ => true
  | _ => false

/-- A conditional whose first body is one statement without delimiters. -/
def isBareIf : Stmt → Bool
  | ifElse _ _ body _ _ => !body.delimited
  | _ => false

def isWhile : Stmt → Bool
  | whileLoop _ _ _ => true
  | _ => false

def isBlock : Stmt → Bool
  | block _ => true
  | _ => false

def branches (statement : Stmt) : Bool := statement.isIf || statement.isWhile

/-- The kinds of statements that the measures look into. -/
def isOpen (statement : Stmt) : Bool := statement.branches || statement.isBlock

end Stmt

/-- A measure of statements. It counts a statement by itself and then the statements in those parts
of it that it enters. What a statement counts for does not depend on what was counted before. -/
structure Tally (Counters : Type) where
  consume : Counters → List Stmt → Counters
  count : Counters → Stmt → Counters
  enters : Ancestor → Bool
  consume_nil : ∀ counters, consume counters [] = counters
  consume_cons : ∀ counters statement rest, consume counters (statement :: rest) =
    consume (consume (count counters statement) (statement.entered enters)) rest
  count_comm : ∀ counters first second,
    count (count counters first) second = count (count counters second) first

namespace Tally

variable {Counters : Type} (tally : Tally Counters)

theorem consume_eq_foldl_of_forall {statements : List Stmt}
    (each : ∀ statement ∈ statements, ∀ counters, tally.consume counters [statement] =
      (statement.visited tally.enters).foldl tally.count counters) (counters : Counters) :
    tally.consume counters statements =
      (statements.flatMap (Stmt.visited tally.enters)).foldl tally.count counters := by
  induction statements generalizing counters with
  | nil => exact tally.consume_nil counters
  | cons statement rest ih =>
      obtain ⟨first, others⟩ := List.forall_mem_cons.mp each
      have alone : tally.consume counters [statement] =
          tally.consume (tally.count counters statement) (statement.entered tally.enters) := by
        rw [tally.consume_cons, tally.consume_nil]
      rw [tally.consume_cons, ← alone, first, ih others, List.flatMap_cons, List.foldl_append]

theorem consume_singleton (counters : Counters) (statement : Stmt) :
    tally.consume counters [statement] =
      (statement.visited tally.enters).foldl tally.count counters := by
  induction statement using Stmt.induction_on_children generalizing counters with
  | step statement ih =>
      rw [tally.consume_cons, tally.consume_nil, Stmt.visited_eq, List.foldl_cons]
      exact tally.consume_eq_foldl_of_forall (fun inner member =>
        ih inner (Stmt.mem_children_of_mem_entered member)) _

/-- A measure counts the statements it comes to, one after the other. -/
theorem consume_eq_foldl (counters : Counters) (statements : List Stmt) :
    tally.consume counters statements =
      (statements.flatMap (Stmt.visited tally.enters)).foldl tally.count counters :=
  tally.consume_eq_foldl_of_forall (fun statement _ counters =>
    tally.consume_singleton counters statement) counters

end Tally

theorem countP_visited (counted : Stmt → Bool) (enters : Ancestor → Bool)
    (statements : List Stmt) :
    (statements.flatMap (Stmt.visited enters)).countP counted =
      (statements.flatMap Stmt.descendants).countP fun descendant =>
        counted descendant.statement && descendant.ancestors.all enters := by
  simp only [List.countP_flatMap, Function.comp_def, Stmt.visited, List.countP_map,
    List.countP_filter]

/-- Whether the first statement is counted, as a number. -/
theorem countP_cons_toNat (counted : Stmt → Bool) (statement : Stmt) (rest : List Stmt) :
    (statement :: rest).countP counted = rest.countP counted + (counted statement).toNat := by
  rw [List.countP_cons]
  cases counted statement <;> rfl

namespace BranchGraph

/-- What a statement adds to the graph by itself. -/
def count (graph : BranchGraph) : Stmt → BranchGraph
  | .ifElse _ _ body _ _ => graph.addNodes (if body.delimited then 1 else 2)
  | .whileLoop _ _ _ => graph.addNodes 1
  | .block _ => graph
  | _ => graph.addEdge

/-- The graph looks into no `elseif`, and into an `else` only after a bare body. -/
def enters (ancestor : Ancestor) : Bool :=
  ancestor.statement.isOpen &&
    match ancestor.region with
    | .elseIf => false
    | .otherwise => ancestor.statement.isBareIf
    | _ => true

theorem entered_of_not_isOpen {statement : Stmt} (closed : statement.isOpen = false) :
    statement.entered enters = [] := by
  simp [Stmt.entered, enters, closed]

theorem visit_eq_consume (graph : BranchGraph) (statement : Stmt) :
    graph.visit statement = (graph.count statement).consume (statement.entered enters) := by
  cases statement with
  | ifElse span condition body elseIfs otherwise =>
      cases delimited : body.delimited <;> cases otherwise <;>
        simp [visit, count, delimited, Stmt.entered, Stmt.regions, enters, Stmt.isOpen,
          Stmt.branches, Stmt.isIf, Stmt.isBareIf, visitBody_eq_foldl, visitElse_eq_foldl,
          consume_eq_foldl, List.foldl_flatMap, List.flatMap_map]
  | whileLoop span condition body =>
      simp [visit, count, Stmt.entered, Stmt.regions, enters, Stmt.isOpen, Stmt.branches,
        Stmt.isWhile, visitBody_eq_foldl, consume_eq_foldl, Stmt.children]
  | block content =>
      simp [visit, count, Stmt.entered, Stmt.regions, enters, Stmt.isOpen, Stmt.isBlock,
        visitBlock_eq_foldl, consume_eq_foldl, Stmt.children]
  | _ =>
      rw [entered_of_not_isOpen rfl]
      rfl

theorem count_eq (graph : BranchGraph) (statement : Stmt) :
    graph.count statement =
      { nodes := graph.nodes + (statement.isIf.toNat + statement.isBareIf.toNat +
          statement.isWhile.toNat)
        edges := graph.edges + (!statement.isOpen).toNat
        exitPoints := graph.exitPoints } := by
  cases statement with
  | ifElse span condition body elseIfs otherwise =>
      cases delimited : body.delimited <;>
        simp [count, addNodes, delimited, Stmt.isIf, Stmt.isBareIf, Stmt.isWhile, Stmt.isOpen,
          Stmt.branches]
  | _ => rfl

theorem count_comm (graph : BranchGraph) (first second : Stmt) :
    (graph.count first).count second = (graph.count second).count first := by
  simp only [count_eq, mk.injEq, and_true]
  constructor <;> exact Nat.add_right_comm _ _ _

def tally : Tally BranchGraph where
  consume := consume
  count := count
  enters := enters
  consume_nil _ := by rw [consume]
  consume_cons graph statement rest := by rw [consume, visit_eq_consume]
  count_comm := count_comm

theorem foldl_count (graph : BranchGraph) (statements : List Stmt) :
    statements.foldl count graph =
      { nodes := graph.nodes + (statements.countP Stmt.isIf + statements.countP Stmt.isBareIf +
          statements.countP Stmt.isWhile)
        edges := graph.edges + statements.countP fun statement => !statement.isOpen
        exitPoints := graph.exitPoints } := by
  induction statements generalizing graph with
  | nil => rfl
  | cons statement rest ih =>
      rw [List.foldl_cons, ih, count_eq]
      simp only [countP_cons_toNat, mk.injEq, and_true]
      constructor <;> omega

theorem consume_eq_counts (graph : BranchGraph) (statements : List Stmt) :
    let visited (counted : Stmt → Bool) := (statements.flatMap Stmt.descendants).countP
      fun descendant => counted descendant.statement && descendant.ancestors.all enters
    graph.consume statements =
      { nodes := graph.nodes + (visited Stmt.isIf + visited Stmt.isBareIf + visited Stmt.isWhile)
        edges := graph.edges + visited fun statement => !statement.isOpen
        exitPoints := graph.exitPoints } := by
  intro visited
  have counted := (tally.consume_eq_foldl graph statements).trans (graph.foldl_count _)
  simp only [countP_visited] at counted
  exact counted

end BranchGraph

namespace PathCount

def count (paths : Nat) (statement : Stmt) : Nat := paths + statement.branches.toNat

def enters (ancestor : Ancestor) : Bool := ancestor.statement.isOpen

theorem entered_of_isOpen {statement : Stmt} (isOpen : statement.isOpen = true) :
    statement.entered enters = statement.children := by
  simp only [Stmt.entered, enters, isOpen, if_true]
  exact statement.flatMap_regions

theorem entered_of_not_isOpen {statement : Stmt} (closed : statement.isOpen = false) :
    statement.entered enters = [] := by
  simp [Stmt.entered, enters, closed]

theorem visit_eq_consume (paths : Nat) (statement : Stmt) :
    visit paths statement = consume (count paths statement) (statement.entered enters) := by
  cases statement with
  | ifElse span condition body elseIfs otherwise =>
      rw [entered_of_isOpen rfl, consume_eq_foldl]
      simp [visit, visitElse_eq_foldl, visitElseIfs_eq_foldl, visitBody_eq_foldl, Stmt.children,
        List.foldl_flatMap, count, Stmt.branches, Stmt.isIf]
  | whileLoop span condition body =>
      rw [entered_of_isOpen rfl, consume_eq_foldl]
      simp [visit, visitBody_eq_foldl, Stmt.children, count, Stmt.branches, Stmt.isWhile]
  | block content =>
      rw [entered_of_isOpen rfl, consume_eq_foldl]
      exact visitBlock_eq_foldl paths content
  | _ =>
      rw [entered_of_not_isOpen rfl]
      rfl

def tally : Tally Nat where
  consume := consume
  count := count
  enters := enters
  consume_nil _ := by rw [consume]
  consume_cons paths statement rest := by rw [consume, visit_eq_consume]
  count_comm _ _ _ := Nat.add_right_comm _ _ _

theorem foldl_count (paths : Nat) (statements : List Stmt) :
    statements.foldl count paths = paths + statements.countP Stmt.branches := by
  induction statements generalizing paths with
  | nil => rfl
  | cons statement rest ih =>
      rw [List.foldl_cons, ih, count, countP_cons_toNat]
      omega

theorem consume_eq_count (paths : Nat) (statements : List Stmt) :
    consume paths statements = paths + (statements.flatMap Stmt.descendants).countP
      fun descendant => descendant.statement.branches && descendant.ancestors.all enters := by
  rw [← countP_visited, ← foldl_count]
  exact tally.consume_eq_foldl paths statements

end PathCount

/-- The path count is the number of branching statements that lie in nothing but branching
statements and blocks. The branch graph counts the same way, but leaves out what lies in an
`elseif`, or in the `else` of a conditional with a delimited body. -/
theorem branch_measures_eq_counts (statements : List Stmt) :
    let descendants := statements.flatMap Stmt.descendants
    let everything := statements.flatMap Stmt.flatten
    let visited (counted : Stmt → Bool) := descendants.countP fun descendant =>
      counted descendant.statement && descendant.ancestors.all fun ancestor =>
        ancestor.statement.isOpen &&
          match ancestor.region with
          | .elseIf => false
          | .otherwise => ancestor.statement.isBareIf
          | _ => true
    descendants.map Descendant.statement = everything ∧
    pathCount statements = descendants.countP (fun descendant =>
      descendant.statement.branches &&
        descendant.ancestors.all fun ancestor => ancestor.statement.isOpen) ∧
    pathCount statements ≤ everything.countP Stmt.branches ∧
    (pathCount statements = everything.countP Stmt.branches ↔
      ∀ descendant ∈ descendants, descendant.statement.branches →
        ∀ ancestor ∈ descendant.ancestors, ancestor.statement.isOpen) ∧
    ({} : BranchGraph).consume statements =
      { nodes := visited Stmt.isIf + visited Stmt.isBareIf + visited Stmt.isWhile
        edges := visited fun statement => !statement.isOpen
        exitPoints := 0 } := by
  intro descendants everything visited
  have listed : descendants.map Descendant.statement = everything := by
    simp only [descendants, everything, List.map_flatMap, Stmt.map_statement_descendants]
  have paths := PathCount.consume_eq_count 0 statements
  rw [Nat.zero_add] at paths
  -- The branching statements of the flattening are those counted and those below another kind.
  have split : everything.countP Stmt.branches = pathCount statements +
      (descendants.filter fun descendant => !descendant.ancestors.all PathCount.enters).countP
        (Stmt.branches ∘ Descendant.statement) := by
    rw [← listed, List.countP_map, pathCount, paths, List.countP_eq_countP_filter_add _ _
      fun descendant => descendant.ancestors.all PathCount.enters, List.countP_filter]
    rfl
  refine ⟨listed, paths, by omega, ?_, ?_⟩
  · rw [split, Nat.left_eq_add, List.countP_eq_zero]
    simp only [List.mem_filter, Bool.not_eq_true', List.all_eq_false, PathCount.enters,
      Function.comp_apply]
    grind
  · have graph := BranchGraph.consume_eq_counts {} statements
    simp only [Nat.zero_add] at graph
    exact graph

end PhpAudit
