import PhpAudit.Proofs.EntryTables
import PhpAudit.Proofs.WalkSteps

/-!
The types of variables along a walk. The trace of a statement lists what the walk through it comes
to, down to the innermost statements. Only an assignment that is a statement of its own changes the
types, so the types after a walk are those that the assignments of the trace give one after the
other.
-/

namespace PhpAudit

/-- A moment of a walk: an expression that is a statement as a whole, another expression, or a
variable that a loop or a catch clause sets. -/
inductive Moment where
  | perform (expression : Expr)
  | resolve (expression : Expr)
  | bind (name : String)

/-- A simple assignment to a variable. -/
structure Assignment where
  name : String
  value : Expr

def Expr.variable? : Expr → Option String
  | var _ label => some label
  | _ => none

def Moment.assignment? : Moment → Option Assignment
  | perform (.assignment _ target .assign value _) =>
      target.variable?.map fun name => ⟨name, value⟩
  | _ => none

/-- A variable takes the type of the value, or loses the type it had when that of the value is
unknown. -/
def Scope.assign (scope : Scope) (types : VariableTypes) (assignment : Assignment) :
    VariableTypes :=
  match scope.typeOf types assignment.value with
  | some type => Entries.put types assignment.name type
  | none => Entries.erase types assignment.name

/-! Traces -/

/-- A step is a moment of the walk, or it leads into another statement. -/
def Step.turn : Step → Moment ⊕ Stmt
  | perform expression => .inl (.perform expression)
  | resolve expression => .inl (.resolve expression)
  | enter statement => .inr statement

namespace Stmt

/-- The steps of a walk together with the variables that the statement sets itself: the key and the
target of a loop over an array, and what a catch clause catches. -/
def course : Stmt → List (Moment ⊕ Stmt)
  | foreachLoop _ subject key _ body target =>
      .inl (.resolve subject) ::
        ((key.toList ++ [target]).filterMap Expr.variable?).map (.inl ∘ .bind) ++
          body.statements.map .inr
  | tryCatch _ content catches finallyBlock =>
      content.statements.map .inr ++
        (catches.flatMap fun clause =>
          clause.binding.toList.map (.inl ∘ .bind) ++ clause.block.statements.map .inr) ++
        finallyBlock.toList.flatMap fun last => last.statements.map .inr
  | statement => statement.steps.map Step.turn

theorem mem_children_of_course {statement inner : Stmt} (member : .inr inner ∈ statement.course) :
    inner ∈ statement.children := by
  have ofSteps : .inr inner ∈ statement.steps.map Step.turn → inner ∈ statement.children := by
    intro turned
    obtain ⟨step, present, turns⟩ := List.mem_map.mp turned
    cases step with
    | enter entered =>
        obtain rfl : entered = inner := Sum.inr.inj turns
        exact mem_children_of_enter present
    | perform expression | resolve expression => cases turns
  cases statement with
  | foreachLoop span subject key value body target => simpa [course, children] using member
  | tryCatch span content catches finallyBlock => simpa [course, children] using member
  | _ => exact ofSteps member

/-- The moments of the walk through a statement and the statements inside it. -/
def trace (statement : Stmt) : List Moment :=
  statement.course.attach.flatMap fun
    | ⟨.inl moment, _⟩ => [moment]
    | ⟨.inr inner, _⟩ => inner.trace
termination_by sizeOf statement
decreasing_by exact sizeOf_lt_of_mem_children (mem_children_of_course ‹_›)

theorem trace_eq (statement : Stmt) :
    statement.trace = statement.course.flatMap (Sum.elim (fun moment => [moment]) trace) := by
  rw [trace]
  conv_rhs => rw [← List.attach_map_subtype_val statement.course, List.flatMap_map]
  congr 1
  funext turn
  rcases turn with ⟨moment | inner, member⟩ <;> rfl

end Stmt

namespace Tracker

variable (scope : Scope)

/-- Setting a variable by a loop or a catch clause leaves everything as it is. -/
def attend (tracker : Tracker) : Moment → Tracker
  | .perform expression => tracker.perform scope expression
  | .resolve expression => tracker.resolve scope expression
  | .bind _ => tracker

def follow (tracker : Tracker) : Moment ⊕ Stmt → Tracker :=
  Sum.elim (attend scope tracker) (walk scope tracker)

theorem foldl_turn (tracker : Tracker) (steps : List Step) :
    (steps.map Step.turn).foldl (follow scope) tracker = steps.foldl (take scope) tracker := by
  rw [List.foldl_map]
  congr 1
  funext tracker step
  cases step <;> rfl

theorem foldl_bind (tracker : Tracker) (names : List String) :
    (names.map (.inl ∘ .bind)).foldl (follow scope) tracker = tracker := by
  induction names with
  | nil => rfl
  | cons name names ih => exact ih

theorem foldl_inr (tracker : Tracker) (statements : List Stmt) :
    (statements.map .inr).foldl (follow scope) tracker = statements.foldl (walk scope) tracker := by
  rw [List.foldl_map]
  rfl

theorem walk_eq_course (tracker : Tracker) (statement : Stmt) :
    walk scope tracker statement = statement.course.foldl (follow scope) tracker := by
  cases statement with
  | foreachLoop span subject key value body target =>
      simp only [walk, Stmt.course, List.foldl_append, List.foldl_cons, foldl_bind, foldl_inr,
        walkBody_eq_foldl]
      rfl
  | tryCatch span content catches finallyBlock =>
      simp only [walk, Stmt.course, List.foldl_append, List.foldl_flatMap, foldl_bind, foldl_inr,
        walkBlock_eq_foldl, walkCatches_eq_foldl, walkFinally_eq_foldl]
  | _ =>
      rw [walk_eq_steps]
      exact (foldl_turn scope tracker _).symm

theorem walk_eq_trace (tracker : Tracker) (statement : Stmt) :
    walk scope tracker statement = statement.trace.foldl (attend scope) tracker := by
  induction statement using Stmt.induction_on_children generalizing tracker with
  | step statement ih =>
      rw [walk_eq_course, Stmt.trace_eq, List.foldl_flatMap]
      refine List.foldl_ext _ _ tracker fun tracker turn member => ?_
      cases turn with
      | inl moment => rfl
      | inr inner => exact ih inner (Stmt.mem_children_of_course member) tracker

theorem walkAll_eq_trace (tracker : Tracker) (statements : List Stmt) :
    walkAll scope tracker statements =
      (statements.flatMap Stmt.trace).foldl (attend scope) tracker := by
  rw [walkAll_eq_foldl, List.foldl_flatMap]
  simp only [← walk_eq_trace]

/-! What a moment does -/

theorem types_assign_var (tracker : Tracker) (place : Span) (name : String) (value : Expr) :
    (tracker.assign scope (.var place name) value).types =
      scope.assign tracker.types ⟨name, value⟩ := by
  cases type : scope.typeOf tracker.types value <;>
    simp [assign, Scope.assign, resolve, setType, type]

theorem types_attend (tracker : Tracker) (moment : Moment) :
    (attend scope tracker moment).types =
      moment.assignment?.toList.foldl scope.assign tracker.types := by
  cases moment with
  | resolve expression | bind name => rfl
  | perform expression =>
      cases expression with
      | assignment span target operator value byRef =>
          cases operator with
          | assign =>
              cases target with
              | var place name => exact types_assign_var scope tracker place name value
              | _ => rfl
          | _ => rfl
      | _ => rfl

theorem found_attend (tracker : Tracker) (moment : Moment) :
    tracker.found <+: (attend scope tracker moment).found := by
  have resolved : ∀ expression, tracker.found <+: (tracker.resolve scope expression).found :=
    fun expression => List.prefix_append _ _
  cases moment with
  | resolve expression => exact resolved expression
  | bind name => exact List.prefix_refl _
  | perform expression =>
      cases expression with
      | assignment span target operator value byRef =>
          cases operator with
          | assign =>
              simp only [attend, perform, found_assign, List.append_assoc]
              exact List.prefix_append _ _
          | _ => exact resolved _
      | _ => exact resolved _

theorem types_foldl_attend (tracker : Tracker) (moments : List Moment) :
    (moments.foldl (attend scope) tracker).types =
      (moments.filterMap Moment.assignment?).foldl scope.assign tracker.types := by
  induction moments generalizing tracker with
  | nil => rfl
  | cons moment rest ih =>
      rw [List.foldl_cons, ih, types_attend, List.filterMap_cons]
      cases moment.assignment? <;> rfl

theorem found_foldl_attend (tracker : Tracker) (moments : List Moment) :
    tracker.found <+: (moments.foldl (attend scope) tracker).found := by
  induction moments generalizing tracker with
  | nil => exact List.prefix_refl _
  | cons moment rest ih => exact (found_attend scope tracker moment).trans (ih _)

/-- After a walk the variables have the types that the simple assignments among the walked
statements give them, in the order of the walk and each under the types at its moment; nothing else
changes a type. The calls found before the walk stay in front of those it adds. -/
theorem walkAll_types_and_found (tracker : Tracker) (statements : List Stmt) :
    (walkAll scope tracker statements).types =
        ((statements.flatMap Stmt.trace).filterMap Moment.assignment?).foldl scope.assign
          tracker.types ∧
      tracker.found <+: (walkAll scope tracker statements).found := by
  rw [walkAll_eq_trace]
  exact ⟨types_foldl_attend scope tracker _, found_foldl_attend scope tracker _⟩

end Tracker

end PhpAudit
