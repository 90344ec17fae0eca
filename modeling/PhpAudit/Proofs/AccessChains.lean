import PhpAudit.Tree.Fold

/-!
Chains of accesses as trees. The fold over a chain turns the access to a member that it has just
made into a call when arguments follow. The same tree is built by dividing the chain into stages
first, looking ahead for the arguments, and then putting one node for each stage on top of the node
before.
So the steps of a chain can be read off its tree, each of them once and in order.
-/

namespace PhpAudit

/-- The ways to select a member of an object or of a class. -/
inductive Selector where
  | arrow | nullsafeArrow | property | constant

namespace Selector

def access (name : String) : Selector → Access
  | arrow => .member name
  | nullsafeArrow => .nullsafeMember name
  | property => .staticProperty name
  | constant => .classConstant name

/-- The node of a member that is not called. -/
def fetch (span : Span) (object : Expr) (name : String) : Selector → Expr
  | arrow => .property span object name
  | nullsafeArrow => .nullsafeProperty span object name
  | property => .staticProperty span object name
  | constant => .classConstant span object name

/-- The node of a member that is called. -/
def call (span : Span) (object : Expr) (name : String) (arguments : List (Argument Expr)) :
    Selector → Expr
  | arrow => .methodCall span object name arguments
  | nullsafeArrow => .nullsafeMethodCall span object name arguments
  | property | constant => .staticMethodCall span object name arguments

end Selector

/-- The steps of a chain that make one node of its tree. -/
inductive Stage where
  | fetch (selector : Selector) (name : String)
  | memberCall (selector : Selector) (name : String) (arguments : List (Argument Expr))
  | call (arguments : List (Argument Expr))
  | element (index : Option Expr)
  | increment
  | decrement

namespace Stage

def ofStep : Access → Stage
  | .member name => fetch .arrow name
  | .nullsafeMember name => fetch .nullsafeArrow name
  | .staticProperty name => fetch .property name
  | .classConstant name => fetch .constant name
  | .element index => element index
  | .call arguments => call arguments
  | .increment => increment
  | .decrement => decrement

def steps : Stage → List Access
  | fetch selector name => [selector.access name]
  | memberCall selector name arguments => [selector.access name, .call arguments]
  | call arguments => [.call arguments]
  | element index => [.element index]
  | increment => [.increment]
  | decrement => [.decrement]

/-- The stage before others. Arguments directly behind the selection of a member belong to it. -/
def before : Stage → List Stage → List Stage
  | fetch selector name, call arguments :: rest => memberCall selector name arguments :: rest
  | stage, rest => stage :: rest

/-- The stages of a chain. -/
def ofSteps (steps : List Access) : List Stage :=
  steps.foldr (fun step rest => (ofStep step).before rest) []

/-- No arguments stand directly behind the selection of a member as a stage of their own. -/
def Separated (stages : List Stage) : Prop :=
  ∀ selector name arguments, ¬ [fetch selector name, call arguments] <:+: stages

/-- The node of a stage on top of the expression before it. -/
def node (span : Span) (target : Expr) : Stage → Expr
  | fetch selector name => selector.fetch span target name
  | memberCall selector name arguments => selector.call span target name arguments
  | call arguments => .call span target arguments
  | element index => .element span target index
  | increment => .unary span .increment target true
  | decrement => .unary span .decrement target true

/-- The nodes of some stages, from the innermost to the outermost. -/
def nodes (span : Span) (target : Expr) : List Stage → List Expr
  | [] => []
  | stage :: rest => stage.node span target :: nodes span (stage.node span target) rest

/-- The outermost node of some stages. -/
def build (span : Span) (target : Expr) (stages : List Stage) : Expr :=
  stages.foldl (node span) target

end Stage

/-- A step of a chain as it is written: a sign and what follows it. -/
inductive Operation where
  | arrow (name : String)
  | nullsafeArrow (name : String)
  | doubleColon (name : String)
  | brackets (index : Option Expr)
  | arguments (values : List (Argument Expr))
  | increment
  | decrement

namespace Access

def operation : Access → Operation
  | member name => .arrow name
  | nullsafeMember name => .nullsafeArrow name
  | staticProperty name | classConstant name => .doubleColon name
  | element index => .brackets index
  | call arguments => .arguments arguments
  | increment => .increment
  | decrement => .decrement

def isCall : Access → Bool
  | call _ => true
  | _ => false

end Access

namespace Expr

/-- An access to a member that is not called. -/
def isFetch : Expr → Bool
  | property _ _ _ | nullsafeProperty _ _ _ | staticProperty _ _ _ | classConstant _ _ _ => true
  | _ => false

def isCall : Expr → Bool
  | call _ _ _ | methodCall _ _ _ _ | nullsafeMethodCall _ _ _ _ | staticMethodCall _ _ _ _ => true
  | _ => false

/-- The operations that a node of a chain stands for, without those below it. -/
def operations : Expr → List Operation
  | property _ _ member => [.arrow member]
  | nullsafeProperty _ _ member => [.nullsafeArrow member]
  | staticProperty _ _ member | classConstant _ _ member => [.doubleColon member]
  | element _ _ index => [.brackets index]
  | call _ _ arguments => [.arguments arguments]
  | methodCall _ _ member arguments => [.arrow member, .arguments arguments]
  | nullsafeMethodCall _ _ member arguments => [.nullsafeArrow member, .arguments arguments]
  | staticMethodCall _ _ member arguments => [.doubleColon member, .arguments arguments]
  | unary _ .increment _ true => [.increment]
  | unary _ .decrement _ true => [.decrement]
  | _ => []

/-- The nodes of a chain above its first expression, from the innermost to the outermost. -/
def spine : Expr → List Expr
  | property span object member => object.spine ++ [property span object member]
  | nullsafeProperty span object member => object.spine ++ [nullsafeProperty span object member]
  | staticProperty span target member => target.spine ++ [staticProperty span target member]
  | classConstant span target member => target.spine ++ [classConstant span target member]
  | element span container index => container.spine ++ [element span container index]
  | call span target arguments => target.spine ++ [call span target arguments]
  | methodCall span object member arguments =>
      object.spine ++ [methodCall span object member arguments]
  | nullsafeMethodCall span object member arguments =>
      object.spine ++ [nullsafeMethodCall span object member arguments]
  | staticMethodCall span target member arguments =>
      target.spine ++ [staticMethodCall span target member arguments]
  | unary span .increment operand true => operand.spine ++ [unary span .increment operand true]
  | unary span .decrement operand true => operand.spine ++ [unary span .decrement operand true]
  | _ => []

end Expr

namespace Stage

variable (span : Span) (target : Expr)

theorem steps_ofStep (step : Access) : (ofStep step).steps = [step] := by
  cases step <;> rfl

theorem flatMap_steps_before (stage : Stage) (rest : List Stage) :
    (stage.before rest).flatMap steps = stage.steps ++ rest.flatMap steps := by
  unfold before
  split <;> rfl

/-- The stages hold the steps of the chain, each of them once and in order. -/
theorem flatMap_steps_ofSteps (chain : List Access) : (ofSteps chain).flatMap steps = chain := by
  induction chain with
  | nil => rfl
  | cons step rest ih =>
      change ((ofStep step).before (ofSteps rest)).flatMap steps = step :: rest
      rw [flatMap_steps_before, steps_ofStep, ih, List.singleton_append]

theorem Separated.before {rest : List Stage} (separated : Separated rest) (stage : Stage) :
    Separated (stage.before rest) := by
  intro selector name arguments inside
  unfold Stage.before at inside
  split at inside
  · rename_i taken member behind
    rcases List.infix_cons_iff.mp inside with first | later
    · cases (List.cons_prefix_cons.mp first).1
    · exact separated selector name arguments (List.infix_cons later)
  · rename_i other
    rcases List.infix_cons_iff.mp inside with first | later
    · obtain ⟨rfl, behind⟩ := List.cons_prefix_cons.mp first
      obtain ⟨more, rfl⟩ := behind
      exact other selector name arguments more rfl rfl
    · exact separated selector name arguments later

theorem separated_ofSteps (steps : List Access) : Separated (ofSteps steps) := by
  induction steps with
  | nil =>
      intro selector name arguments inside
      cases List.infix_nil.mp inside
  | cons step rest ih => exact ih.before (ofStep step)

theorem node_span (stage : Stage) : (stage.node span target).span = span := by
  cases stage with
  | fetch selector name => cases selector <;> rfl
  | memberCall selector name arguments => cases selector <;> rfl
  | _ => rfl

theorem spine_node (stage : Stage) :
    (stage.node span target).spine = target.spine ++ [stage.node span target] := by
  cases stage with
  | fetch selector name => cases selector <;> rfl
  | memberCall selector name arguments => cases selector <;> rfl
  | _ => rfl

theorem operations_node (stage : Stage) :
    (stage.node span target).operations = stage.steps.map Access.operation := by
  cases stage with
  | fetch selector name => cases selector <;> rfl
  | memberCall selector name arguments => cases selector <;> rfl
  | _ => rfl

theorem countP_isCall_node (stage : Stage) :
    [stage.node span target].countP Expr.isCall = stage.steps.countP Access.isCall := by
  cases stage with
  | fetch selector name => cases selector <;> rfl
  | memberCall selector name arguments => cases selector <;> rfl
  | _ => rfl

/-! The fold over a chain -/

/-- A call takes over the access to a member; on any other expression a step makes its own node. -/
theorem access_eq_node {target : Expr} {step : Access}
    (apart : target.isFetch = false ∨ step.isCall = false) :
    target.access step = (ofStep step).node target.span target := by
  cases step with
  | call arguments => cases target <;> first | rfl | simp [Expr.isFetch, Access.isCall] at apart
  | _ => rfl

theorem access_fetch_call (selector : Selector) (name : String) (arguments : List (Argument Expr)) :
    (selector.fetch span target name).access (.call arguments) =
      (memberCall selector name arguments).node span target := by
  cases selector <;> rfl

theorem memberCall_isFetch (selector : Selector) (name : String)
    (arguments : List (Argument Expr)) :
    ((memberCall selector name arguments).node span target).isFetch = false := by
  cases selector <;> rfl

/-- Only arguments join the selection of a member before them. -/
theorem fetch_before {stage : Stage} (other : ∀ arguments, stage ≠ call arguments)
    (selector : Selector) (name : String) (rest : List Stage) :
    (fetch selector name).before (stage.before rest) =
      fetch selector name :: stage.before rest := by
  cases stage with
  | call arguments => exact absurd rfl (other arguments)
  | fetch next member =>
      cases rest with
      | nil => rfl
      | cons stage stages => cases stage <;> rfl
  | _ => rfl

theorem ofStep_ne_call {step : Access} (other : step.isCall = false)
    (arguments : List (Argument Expr)) : ofStep step ≠ call arguments := by
  intro same
  cases step with
  | call arguments => cases other
  | _ => cases same

/-- The rest of a chain is folded into its stages, on top of an expression that no call can take
over and on top of the selection of a member, which is a part of the first stage then. -/
structure Folds (rest : List Access) : Prop where
  plain : ∀ target : Expr, target.isFetch = false →
    target.accessAll rest = build target.span target (ofSteps rest)
  fetch : ∀ span target (selector : Selector) name,
    (selector.fetch span target name).accessAll rest =
      build span target ((Stage.fetch selector name).before (ofSteps rest))

namespace Folds

variable {rest : List Access} {step : Access} {target : Expr}

theorem own (folds : Folds rest) (apart : target.isFetch = false ∨ step.isCall = false) :
    target.accessAll (step :: rest) = build target.span target (ofSteps (step :: rest)) := by
  change (target.access step).accessAll rest =
    build target.span target ((ofStep step).before (ofSteps rest))
  rw [access_eq_node apart]
  cases ofStep step with
  | fetch selector name => exact folds.fetch target.span target selector name
  | memberCall selector name arguments =>
      rw [folds.plain _ (memberCall_isFetch ..), node_span]
      rfl
  | _ => exact folds.plain _ rfl

theorem cons (folds : Folds rest) (step : Access) : Folds (step :: rest) where
  plain target free := folds.own (.inl free)
  fetch span target selector name := by
    by_cases other : step.isCall = false
    · have fetched : (selector.fetch span target name).span = span :=
        node_span span target (.fetch ..)
      have alone := fetch_before (ofStep_ne_call other) selector name (ofSteps rest)
      rw [folds.own (.inr other), fetched]
      exact (congrArg (build span target) alone).symm
    · cases step with
      | call arguments =>
          change ((selector.fetch span target name).access (.call arguments)).accessAll rest = _
          rw [access_fetch_call, folds.plain _ (memberCall_isFetch ..), node_span]
          rfl
      | _ => exact absurd rfl other

end Folds

theorem folds (steps : List Access) : Folds steps := by
  induction steps with
  | nil => exact ⟨fun _ _ => rfl, fun _ _ _ _ => rfl⟩
  | cons step rest ih => exact ih.cons step

/-! The nodes of the stages -/

theorem spine_build (stages : List Stage) :
    (build span target stages).spine = target.spine ++ nodes span target stages := by
  induction stages generalizing target with
  | nil => exact (List.append_nil _).symm
  | cons stage rest ih =>
      change (build span (stage.node span target) rest).spine = _
      rw [ih, spine_node, List.append_assoc]
      rfl

theorem flatMap_operations_nodes (stages : List Stage) :
    (nodes span target stages).flatMap Expr.operations =
      (stages.flatMap steps).map Access.operation := by
  induction stages generalizing target with
  | nil => rfl
  | cons stage rest ih => simp only [nodes, List.flatMap_cons, List.map_append, operations_node, ih]

theorem countP_isCall_nodes (stages : List Stage) :
    (nodes span target stages).countP Expr.isCall =
      (stages.flatMap steps).countP Access.isCall := by
  induction stages generalizing target with
  | nil => rfl
  | cons stage rest ih =>
      rw [nodes, ← List.singleton_append, List.countP_append, countP_isCall_node, ih,
        List.flatMap_cons, List.countP_append]

theorem span_of_mem_nodes {stages : List Stage} {found : Expr}
    (inside : found ∈ nodes span target stages) : found.span = span := by
  induction stages generalizing target with
  | nil => cases inside
  | cons stage rest ih =>
      rcases List.mem_cons.mp inside with rfl | later
      · exact node_span span target stage
      · exact ih _ later

end Stage

end PhpAudit
