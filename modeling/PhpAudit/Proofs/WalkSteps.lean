import PhpAudit.Proofs.ReceiverCalls
import PhpAudit.Proofs.StatementFolds

/-!
The walk through a statement as a list of steps. Each step looks at an expression of the statement
or enters a statement inside it, and hands the types of the variables to the next one. Which calls
a walk finds is then a matter of the moments at which it meets an expression.
-/

namespace PhpAudit

/-- A step of the walk through a statement. Only an expression that is a statement as a whole is
performed, so that its assignment counts; all others are looked at for their calls. -/
inductive Step where
  | perform (expression : Expr)
  | resolve (expression : Expr)
  | enter (statement : Stmt)

namespace Step

def expression? : Step → Option Expr
  | perform expression | resolve expression => some expression
  | enter _ => none

def statement? : Step → Option Stmt
  | enter statement => some statement
  | _ => none

end Step

namespace Stmt

/-- The steps of the walk through a statement. Namespaces, declarations and the blocks of declare
statements have none. -/
def steps : Stmt → List Step
  | expression _ value => [.perform value]
  | returnValue _ value => value.toList.map .resolve
  | echo _ values => values.map .resolve
  | ifElse _ condition body elseIfs otherwise =>
      .resolve condition :: body.statements.map .enter ++
        (elseIfs.flatMap fun clause =>
          .resolve clause.condition :: clause.body.statements.map .enter) ++
        otherwise.toList.flatMap fun clause => clause.body.statements.map .enter
  | whileLoop _ condition body => .resolve condition :: body.statements.map .enter
  | doWhile _ body condition => [.enter body, .resolve condition]
  | forLoop _ initializers conditions steps body =>
      (initializers ++ conditions ++ steps).map .resolve ++ body.statements.map .enter
  | foreachLoop _ subject _ _ body _ => .resolve subject :: body.statements.map .enter
  | switch _ subject cases =>
      .resolve subject :: cases.flatMap fun clause =>
        clause.condition.toList.map .resolve ++ clause.statements.map .enter
  | tryCatch _ content catches finallyBlock =>
      content.statements.map .enter ++
        (catches.flatMap fun clause => clause.block.statements.map .enter) ++
        finallyBlock.toList.flatMap fun last => last.statements.map .enter
  | block content => content.statements.map .enter
  | _ => []

/-- Whether the walk goes on inside the statement. -/
def isEntered : Stmt → Bool
  | package _ _ _ _ | declaration _ | declare _ _ _ => false
  | _ => true

theorem steps_expressions (statement : Stmt) :
    statement.steps.filterMap Step.expression? = statement.ownExpressions := by
  have resolves : ∀ values : List Expr,
      (values.map Step.resolve).filterMap Step.expression? = values := by
    intro values
    simp [List.filterMap_map, Function.comp_def, Step.expression?]
  have enters : ∀ statements : List Stmt,
      (statements.map Step.enter).filterMap Step.expression? = [] := by
    intro statements
    simp [List.filterMap_map, Function.comp_def, Step.expression?]
  cases statement with
  | ifElse span condition body elseIfs otherwise =>
      have conditions : (elseIfs.flatMap fun clause => [clause.condition]) =
          elseIfs.map ElseIf.condition := List.map_eq_flatMap.symm
      cases otherwise <;>
        simp [steps, ownExpressions, enters, conditions, List.filterMap_flatMap, Step.expression?]
  | doWhile span body condition => rfl
  | switch span subject cases =>
      simp only [steps, ownExpressions, List.filterMap_cons, Step.expression?,
        List.filterMap_flatMap, List.filterMap_append, resolves, enters, List.append_nil]
      rw [List.filterMap_eq_flatMap_toList]
  | _ => simp [steps, ownExpressions, resolves, enters, List.filterMap_flatMap, Step.expression?]

theorem steps_statements {statement : Stmt} (entered : statement.isEntered = true) :
    statement.steps.filterMap Step.statement? = statement.children := by
  have resolves : ∀ values : List Expr,
      (values.map Step.resolve).filterMap Step.statement? = [] := by
    intro values
    simp [List.filterMap_map, Function.comp_def, Step.statement?]
  have enters : ∀ statements : List Stmt,
      (statements.map Step.enter).filterMap Step.statement? = statements := by
    intro statements
    simp [List.filterMap_map, Function.comp_def, Step.statement?]
  cases statement with
  | package span name statements braced => cases entered
  | declaration content => cases entered
  | declare span directives body => cases entered
  | _ =>
      simp [steps, children, resolves, enters, List.filterMap_flatMap, List.filterMap_cons,
        Step.statement?]

end Stmt

namespace Tracker

variable (scope : Scope)

def take (tracker : Tracker) : Step → Tracker
  | .perform expression => tracker.perform scope expression
  | .resolve expression => tracker.resolve scope expression
  | .enter statement => walk scope tracker statement

theorem foldl_resolve (tracker : Tracker) (expressions : List Expr) :
    (expressions.map Step.resolve).foldl (take scope) tracker =
      tracker.resolveAll scope expressions := by
  rw [List.foldl_map]
  rfl

theorem foldl_enter (tracker : Tracker) (statements : List Stmt) :
    (statements.map Step.enter).foldl (take scope) tracker =
      statements.foldl (walk scope) tracker := by
  rw [List.foldl_map]
  rfl

theorem walk_eq_steps (tracker : Tracker) (statement : Stmt) :
    walk scope tracker statement = statement.steps.foldl (take scope) tracker := by
  cases statement with
  | returnValue span value => cases value <;> rfl
  | _ =>
      simp only [walk, Stmt.steps, walkBody_eq_foldl, walkElseIfs_eq_foldl, walkElse_eq_foldl,
        walkCases_eq_foldl, walkBlock_eq_foldl, walkCatches_eq_foldl, walkFinally_eq_foldl,
        List.foldl_append, List.foldl_cons, List.foldl_nil, List.foldl_flatMap, foldl_resolve,
        foldl_enter, take]

/-- A variable that gets a type holds no call, and any other target changes no type. -/
theorem found_assign (tracker : Tracker) (target value : Expr) :
    (tracker.assign scope target value).found =
      tracker.found ++ scope.calls tracker.types value ++ scope.calls tracker.types target := by
  cases target with
  | var place name =>
      cases type : scope.typeOf tracker.types value <;>
        simp [assign, type, setType, resolve, Scope.calls]
  | _ => rfl

/-- Whatever the step does with the types, the calls it adds for an expression are those at the
types before the step. -/
theorem mem_found_take {step : Step} {expression : Expr}
    (looks : step.expression? = some expression) (tracker : Tracker) (call : ForeignCall) :
    call ∈ (take scope tracker step).found ↔
      call ∈ tracker.found ∨ call ∈ scope.calls tracker.types expression := by
  have resolved : call ∈ (tracker.resolve scope expression).found ↔
      call ∈ tracker.found ∨ call ∈ scope.calls tracker.types expression := List.mem_append
  cases step with
  | enter statement => cases looks
  | resolve inner =>
      cases looks
      exact resolved
  | perform inner =>
      cases looks
      cases expression with
      | assignment span target operator value byRef =>
          cases operator with
          | assign =>
              simp only [take, perform, found_assign, Scope.calls, List.mem_append]
              grind
          | _ => exact resolved
      | _ => exact resolved

end Tracker

namespace Stmt

theorem mem_children_of_enter {statement inner : Stmt}
    (enters : Step.enter inner ∈ statement.steps) : inner ∈ statement.children := by
  cases entered : statement.isEntered with
  | true =>
      rw [← steps_statements entered]
      exact List.mem_filterMap.mpr ⟨_, enters, rfl⟩
  | false =>
      cases statement with
      | package _ _ _ _ | declaration _ | declare _ _ _ => cases enters
      | _ => cases entered

/-- `Meets scope owner expression known tracker statement`: the walk through `statement` from
`tracker` looks at an expression of `owner` when the variables have the types `known`. -/
inductive Meets (scope : Scope) (owner : Stmt) (expression : Expr) (known : VariableTypes) :
    Tracker → Stmt → Prop
  | own {tracker : Tracker} {before after : List Step} {step : Step}
      (split : owner.steps = before ++ step :: after)
      (looks : step.expression? = some expression)
      (moment : (before.foldl (Tracker.take scope) tracker).types = known) :
      Meets scope owner expression known tracker owner
  | inside {tracker : Tracker} {before after : List Step} {statement inner : Stmt}
      (split : statement.steps = before ++ Step.enter inner :: after)
      (deeper : Meets scope owner expression known (before.foldl (Tracker.take scope) tracker)
        inner) :
      Meets scope owner expression known tracker statement

theorem Meets.steps_ne_nil {scope : Scope} {owner statement : Stmt} {expression : Expr}
    {known : VariableTypes} {tracker : Tracker}
    (meets : Meets scope owner expression known tracker statement) : statement.steps ≠ [] := by
  cases meets with
  | own split looks moment => simp [split]
  | inside split deeper => simp [split]

end Stmt

namespace Tracker

variable (scope : Scope)

theorem found_subset_foldl {steps : List Step}
    (keeps : ∀ step ∈ steps, ∀ tracker : Tracker, tracker.found ⊆ (take scope tracker step).found)
    (tracker : Tracker) : tracker.found ⊆ (steps.foldl (take scope) tracker).found := by
  induction steps generalizing tracker with
  | nil => exact List.Subset.refl _
  | cons step rest ih =>
      have first := keeps step List.mem_cons_self tracker
      have others := ih (fun step member => keeps step (List.mem_cons_of_mem _ member))
        (take scope tracker step)
      exact List.Subset.trans first others

theorem found_subset_take_of {step : Step}
    (entered : ∀ inner, step = .enter inner → ∀ tracker : Tracker,
      tracker.found ⊆ (walk scope tracker inner).found) (tracker : Tracker) :
    tracker.found ⊆ (take scope tracker step).found := by
  intro call known
  cases step with
  | enter inner => exact entered inner rfl tracker known
  | resolve expression | perform expression =>
      exact (mem_found_take scope rfl tracker call).mpr (.inl known)

theorem found_subset_walk (statement : Stmt) (tracker : Tracker) :
    tracker.found ⊆ (walk scope tracker statement).found := by
  induction statement using Stmt.induction_on_children generalizing tracker with
  | step statement ih =>
      rw [walk_eq_steps]
      refine found_subset_foldl scope ?_ tracker
      intro step member
      apply found_subset_take_of
      rintro inner rfl
      exact ih inner (Stmt.mem_children_of_enter member)

theorem found_subset_take (tracker : Tracker) (step : Step) :
    tracker.found ⊆ (take scope tracker step).found :=
  found_subset_take_of scope (fun inner _ => found_subset_walk scope inner) tracker

theorem mem_found_of_split {statement : Stmt} {before after : List Step} {step : Step}
    (split : statement.steps = before ++ step :: after) {tracker : Tracker} {call : ForeignCall}
    (added : call ∈ (take scope (before.foldl (take scope) tracker) step).found) :
    call ∈ (walk scope tracker statement).found := by
  rw [walk_eq_steps, split, List.foldl_append, List.foldl_cons]
  exact found_subset_foldl scope (fun step _ tracker => found_subset_take scope tracker step) _
    added

/-- A call that a run of steps adds is added by one of them. -/
theorem exists_step_of_mem_foldl {call : ForeignCall} (steps : List Step) (tracker : Tracker)
    (found : call ∈ (steps.foldl (take scope) tracker).found) :
    call ∈ tracker.found ∨ ∃ before step after, steps = before ++ step :: after ∧
      call ∉ (before.foldl (take scope) tracker).found ∧
      call ∈ (take scope (before.foldl (take scope) tracker) step).found := by
  induction steps generalizing tracker with
  | nil => exact .inl found
  | cons step rest ih =>
      by_cases known : call ∈ tracker.found
      · exact .inl known
      right
      rcases ih _ found with now | ⟨before, later, after, rfl, absent, added⟩
      · exact ⟨[], step, rest, rfl, known, now⟩
      · exact ⟨step :: before, later, after, rfl, absent, added⟩

theorem mem_found_of_meets {owner statement : Stmt} {expression : Expr} {known : VariableTypes}
    {tracker : Tracker} (meets : Stmt.Meets scope owner expression known tracker statement)
    {call : ForeignCall} (foreign : call ∈ scope.calls known expression) :
    call ∈ (walk scope tracker statement).found := by
  induction meets with
  | own split looks moment =>
      subst moment
      exact mem_found_of_split scope split ((mem_found_take scope looks _ call).mpr (.inr foreign))
  | inside split deeper ih => exact mem_found_of_split scope split ih

theorem meets_of_mem_found {call : ForeignCall} (statement : Stmt) (tracker : Tracker)
    (found : call ∈ (walk scope tracker statement).found) :
    call ∈ tracker.found ∨ ∃ owner expression known,
      Stmt.Meets scope owner expression known tracker statement ∧
      call ∈ scope.calls known expression := by
  induction statement using Stmt.induction_on_children generalizing tracker with
  | step statement ih =>
      rw [walk_eq_steps] at found
      rcases exists_step_of_mem_foldl scope _ _ found with
        earlier | ⟨before, step, after, split, absent, added⟩
      · exact .inl earlier
      right
      have looked : ∀ expression, step.expression? = some expression →
          ∃ owner expression known, Stmt.Meets scope owner expression known tracker statement ∧
            call ∈ scope.calls known expression := by
        intro expression looks
        have fresh := ((mem_found_take scope looks _ call).mp added).resolve_left absent
        exact ⟨statement, expression, _, .own split looks rfl, fresh⟩
      cases step with
      | resolve expression | perform expression => exact looked expression rfl
      | enter inner =>
          have child : inner ∈ statement.children :=
            Stmt.mem_children_of_enter (by rw [split]; simp)
          obtain ⟨owner, expression, known, deeper, foreign⟩ :=
            (ih inner child _ added).resolve_left absent
          exact ⟨owner, expression, known, .inside split deeper, foreign⟩

/-- The calls that a fresh walk finds are the foreign calls at the expressions it meets, each
judged by the types of that moment. -/
theorem mem_found_iff {call : ForeignCall} (statement : Stmt) :
    call ∈ (walk scope {} statement).found ↔ ∃ owner expression known,
      Stmt.Meets scope owner expression known {} statement ∧
      ∃ node ∈ expression.walk, scope.foreignCallAt known node = some call := by
  have listed : ∀ known expression, call ∈ scope.calls known expression ↔
      ∃ node ∈ expression.walk, scope.foreignCallAt known node = some call := by
    intro known expression
    rw [(scope.calls_perm_walk known expression).mem_iff, List.mem_filterMap]
  constructor
  · intro found
    obtain ⟨owner, expression, known, meets, foreign⟩ :=
      (meets_of_mem_found scope statement {} found).resolve_left List.not_mem_nil
    exact ⟨owner, expression, known, meets, (listed known expression).mp foreign⟩
  · rintro ⟨owner, expression, known, meets, foreign⟩
    exact mem_found_of_meets scope meets ((listed known expression).mpr foreign)

end Tracker

namespace Stmt

/-- The walk through one statement comes to another one inside it. -/
inductive LeadsTo : Stmt → Stmt → Prop
  | here {statement : Stmt} : LeadsTo statement statement
  | inside {outer middle inner : Stmt} (entered : outer.isEntered = true)
      (child : middle ∈ outer.children) (deeper : LeadsTo middle inner) : LeadsTo outer inner

theorem LeadsTo.meets {outer owner : Stmt} (leads : LeadsTo outer owner) {expression : Expr}
    (own : expression ∈ owner.ownExpressions) (scope : Scope) (tracker : Tracker) :
    ∃ known, Meets scope owner expression known tracker outer := by
  induction leads generalizing tracker with
  | @here owner =>
      rw [← steps_expressions] at own
      obtain ⟨step, member, looks⟩ := List.mem_filterMap.mp own
      obtain ⟨before, after, split⟩ := List.append_of_mem member
      exact ⟨_, .own split looks rfl⟩
  | inside entered child deeper ih =>
      rw [← steps_statements entered] at child
      obtain ⟨step, member, enters⟩ := List.mem_filterMap.mp child
      cases step with
      | resolve expression | perform expression => cases enters
      | enter inner =>
          cases enters
          obtain ⟨before, after, split⟩ := List.append_of_mem member
          obtain ⟨known, meets⟩ := ih own (before.foldl (Tracker.take scope) tracker)
          exact ⟨known, .inside split meets⟩

/-- Flattening and walking part at the statements that the walk does not enter. -/
theorem leadsTo_of_mem_flatten {outer statement : Stmt} (member : statement ∈ outer.flatten) :
    LeadsTo outer statement ∨ ∃ closed, LeadsTo outer closed ∧ closed.isEntered = false ∧
      statement ∈ closed.children.flatMap flatten := by
  induction outer using Stmt.induction_on_children with
  | step outer ih =>
      rw [flatten_eq] at member
      rcases List.mem_cons.mp member with rfl | below
      · exact .inl .here
      cases entered : outer.isEntered with
      | false => exact .inr ⟨outer, .here, entered, below⟩
      | true =>
          obtain ⟨child, inside, deeper⟩ := List.mem_flatMap.mp below
          rcases ih child inside deeper with leads | ⟨closed, leads, barred, lost⟩
          · exact .inl (.inside entered inside leads)
          · exact .inr ⟨closed, .inside entered inside leads, barred, lost⟩

end Stmt

end PhpAudit
