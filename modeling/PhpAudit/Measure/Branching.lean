import PhpAudit.Tree.Basic

/-!
Two measures of how much a method body branches. The branch graph adds a node for every `if` and
`while` and an edge for every other statement; an `if` whose body is one bare statement adds a
second node for the branch that is not written. The path count adds one for every `if` and
`while`. Both look into the bodies of `if` and `while` and into blocks, and into nothing else.
-/

namespace PhpAudit

structure BranchGraph where
  nodes : Nat := 0
  edges : Nat := 0
  exitPoints : Nat := 0
deriving DecidableEq, Inhabited

namespace BranchGraph

def score (graph : BranchGraph) : Int :=
  (graph.nodes : Int) - graph.edges + 2 * graph.exitPoints

def addNodes (graph : BranchGraph) (count : Nat) : BranchGraph :=
  { graph with nodes := graph.nodes + count }

def addEdge (graph : BranchGraph) : BranchGraph :=
  { graph with edges := graph.edges + 1 }

mutual

/-- A delimited body hides the other branches of its `if`. -/
def visit (graph : BranchGraph) : Stmt → BranchGraph
  | .ifElse _ _ body _ otherwise =>
      if body.delimited then visitBody (graph.addNodes 1) body
      else visitElse (visitBody (graph.addNodes 2) body) otherwise
  | .whileLoop _ _ body => visitBody (graph.addNodes 1) body
  | .block content => visitBlock graph content
  | _ => graph.addEdge

def visitBody (graph : BranchGraph) : Body Stmt → BranchGraph
  | .single statement => visit graph statement
  | .colon _ statements => consume graph statements

def visitBlock (graph : BranchGraph) : Block Stmt → BranchGraph
  | ⟨_, statements⟩ => consume graph statements

def visitElse (graph : BranchGraph) : Option (Else Stmt) → BranchGraph
  | none => graph
  | some clause => visitElseBody graph clause

def visitElseBody (graph : BranchGraph) : Else Stmt → BranchGraph
  | ⟨_, body⟩ => visitBody graph body

def consume (graph : BranchGraph) : List Stmt → BranchGraph
  | [] => graph
  | statement :: rest => consume (visit graph statement) rest

end

end BranchGraph

def branchScore (statements : List Stmt) : Int :=
  (({} : BranchGraph).consume statements).score

namespace PathCount

mutual

def visit (count : Nat) : Stmt → Nat
  | .ifElse _ _ body elseIfs otherwise =>
      visitElse (visitElseIfs (visitBody (count + 1) body) elseIfs) otherwise
  | .whileLoop _ _ body => visitBody (count + 1) body
  | .block content => visitBlock count content
  | _ => count

def visitBody (count : Nat) : Body Stmt → Nat
  | .single statement => visit count statement
  | .colon _ statements => consume count statements

def visitBlock (count : Nat) : Block Stmt → Nat
  | ⟨_, statements⟩ => consume count statements

def visitElseIfs (count : Nat) : List (ElseIf Expr Stmt) → Nat
  | [] => count
  | clause :: rest => visitElseIfs (visitElseIf count clause) rest

def visitElseIf (count : Nat) : ElseIf Expr Stmt → Nat
  | ⟨_, _, body⟩ => visitBody count body

def visitElse (count : Nat) : Option (Else Stmt) → Nat
  | none => count
  | some clause => visitElseBody count clause

def visitElseBody (count : Nat) : Else Stmt → Nat
  | ⟨_, body⟩ => visitBody count body

def consume (count : Nat) : List Stmt → Nat
  | [] => count
  | statement :: rest => consume (visit count statement) rest

end

end PathCount

def pathCount (statements : List Stmt) : Nat := PathCount.consume 0 statements

end PhpAudit
