import Mathlib.Data.List.Perm.Basic
import PhpAudit.Proofs.Sealing
import PhpAudit.Receiver.Tracker

/-!
The foreign calls of an expression. Looking for them and walking through the expression are two
independent recursions over the same trees; here both are shown to meet the same calls, each of
them once.
-/

namespace PhpAudit

namespace Expr

/-- The direct parts of an expression in the order in which calls are looked for in them: the
arguments for a new object come before its class. -/
def searched : Expr → List Expr
  | new _ target arguments => arguments.map Argument.value ++ [target]
  | expression => expression.subexpressions

theorem searched_perm (expression : Expr) :
    expression.searched.Perm expression.subexpressions := by
  cases expression with
  | new span target arguments => exact List.perm_append_comm
  | _ => exact List.Perm.refl _

theorem sealed_searched (expression : Expr) :
    expression.sealed.searched = expression.searched.map Expr.sealed := by
  have parts := sealed_subexpressions expression
  cases expression with
  | new span target arguments => simp [Expr.sealed, searched]
  | _ => exact parts

end Expr

namespace Scope

/-- The call of a method that an expression itself is, with the type of its receiver. -/
def callAt (scope : Scope) (types : VariableTypes) : Expr → Option ForeignCall
  | .methodCall span object method _ => some ⟨method, scope.typeOf types object, span⟩
  | .nullsafeMethodCall span object method _ => some ⟨method, scope.typeOf types object, span⟩
  | .staticMethodCall span target method _ => some ⟨method, scope.referenceType types target, span⟩
  | _ => none

/-- A call goes to another object when the type of its receiver is unknown or not the own one. -/
def callsAnother (scope : Scope) (call : ForeignCall) : Bool :=
  call.receiver.all fun type => !scope.owns type

/-- The foreign call at an expression itself, if it is one. -/
def foreignCallAt (scope : Scope) (types : VariableTypes) (expression : Expr) :
    Option ForeignCall :=
  (scope.callAt types expression).filter scope.callsAnother

variable (scope : Scope) (types : VariableTypes)

theorem callsInOption_eq_flatMap (expression : Option Expr) :
    scope.callsInOption types expression = expression.toList.flatMap (scope.calls types) := by
  cases expression with
  | none => rfl
  | some expression => simp [callsInOption]

theorem callsInAll_eq_flatMap (expressions : List Expr) :
    scope.callsInAll types expressions = expressions.flatMap (scope.calls types) := by
  induction expressions with
  | nil => rfl
  | cons expression rest ih => rw [callsInAll, ih, List.flatMap_cons]

theorem callsInArguments_eq_flatMap (arguments : List (Argument Expr)) :
    scope.callsInArguments types arguments =
      (arguments.map Argument.value).flatMap (scope.calls types) := by
  induction arguments with
  | nil => rfl
  | cons argument rest ih =>
      cases argument
      rw [callsInArguments, ih, callsInArgument, List.map_cons, List.flatMap_cons]

theorem callsInItems_eq_flatMap (items : List (ArrayItem Expr)) :
    scope.callsInItems types items =
      (items.flatMap fun item => item.key.toList ++ [item.value]).flatMap (scope.calls types) := by
  induction items with
  | nil => rfl
  | cons item rest ih =>
      cases item
      simp [callsInItems, ih, callsInItem, callsInOption_eq_flatMap]

theorem callsInArms_eq_flatMap (arms : List (MatchArm Expr)) :
    scope.callsInArms types arms =
      (arms.flatMap fun arm => arm.conditions ++ [arm.result]).flatMap (scope.calls types) := by
  induction arms with
  | nil => rfl
  | cons arm rest ih =>
      cases arm
      simp [callsInArms, ih, callsInArm, callsInAll_eq_flatMap]

theorem report_eq_toList (receiver : Option String) (method : String) (span : Span) :
    scope.report receiver method span =
      ((some ⟨method, receiver, span⟩ : Option ForeignCall).filter scope.callsAnother).toList := by
  cases receiver with
  | none => simp [report, isForeign, callsAnother, Option.filter]
  | some type =>
      cases owned : scope.owns type <;> simp [report, isForeign, callsAnother, owned, Option.filter]

/-- Calls are looked for in the direct parts of an expression; the call at the expression itself
comes last. -/
theorem calls_eq (expression : Expr) :
    scope.calls types expression =
      expression.searched.flatMap (scope.calls types) ++
        (scope.foreignCallAt types expression).toList := by
  cases expression <;>
    simp [calls, Expr.searched, Expr.subexpressions, foreignCallAt, callAt, report_eq_toList,
      callsInArguments_eq_flatMap, callsInItems_eq_flatMap, callsInArms_eq_flatMap,
      callsInOption_eq_flatMap]

/-- The calls found in an expression are the calls at the expressions of its walk, in another
order. -/
theorem calls_perm_walk (expression : Expr) :
    (scope.calls types expression).Perm
      (expression.walk.filterMap (scope.foreignCallAt types)) := by
  induction expression using Expr.induction_on_parts with
  | step expression ih =>
      have parts : (expression.searched.flatMap (scope.calls types)).Perm
          (expression.subexpressions.flatMap fun inner =>
            inner.walk.filterMap (scope.foreignCallAt types)) :=
        (expression.searched_perm.flatMap_right _).trans (List.Perm.flatMap_left _ ih)
      rw [calls_eq, Expr.walk_eq, List.filterMap_cons, List.filterMap_flatMap]
      cases scope.foreignCallAt types expression with
      | none => simpa using parts
      | some call => exact (List.perm_append_comm).trans (parts.cons call)

/-! Sealed expressions -/

theorem typeOf_sealed (expression : Expr) :
    scope.typeOf types expression.sealed = scope.typeOf types expression := by
  induction expression using Expr.induction_on_parts with
  | step expression ih =>
      cases expression with
      | methodCall span object method arguments =>
          simp only [Expr.sealed, typeOf, ih object (by simp [Expr.subexpressions])]
      | nullsafeMethodCall span object method arguments =>
          simp only [Expr.sealed, typeOf, ih object (by simp [Expr.subexpressions])]
      | staticMethodCall span target method arguments =>
          have same := ih target (by simp [Expr.subexpressions])
          cases target <;> simp_all [Expr.sealed, typeOf]
      | new span target arguments => cases target <;> simp [Expr.sealed, typeOf]
      | _ => rfl

theorem referenceType_sealed (expression : Expr) :
    scope.referenceType types expression.sealed = scope.referenceType types expression := by
  have same := scope.typeOf_sealed types expression
  cases expression with
  | name span text => rfl
  | _ => exact same

theorem foreignCallAt_sealed (expression : Expr) :
    scope.foreignCallAt types expression.sealed = scope.foreignCallAt types expression := by
  unfold foreignCallAt
  congr 1
  cases expression <;> simp [Expr.sealed, callAt, typeOf_sealed, referenceType_sealed]

theorem calls_sealed (expression : Expr) :
    scope.calls types expression.sealed = scope.calls types expression := by
  induction expression using Expr.induction_on_parts with
  | step expression ih =>
      have parts : ∀ inner ∈ expression.searched,
          scope.calls types inner.sealed = scope.calls types inner := fun inner member =>
        ih inner (expression.searched_perm.mem_iff.mp member)
      rw [calls_eq, calls_eq, Expr.sealed_searched, List.flatMap_map, List.flatMap_congr parts,
        foreignCallAt_sealed]

end Scope

/-- Looking for foreign calls in an expression leaves the types of the variables as they are and
adds exactly the foreign calls at the expressions of the walk, each once. What is written inside
a closure, an arrow function or an anonymous class does not matter. -/
theorem Tracker.resolve_exact (scope : Scope) (tracker : Tracker) (expression : Expr) :
    (tracker.resolve scope expression).types = tracker.types ∧
      (∃ added, (tracker.resolve scope expression).found = tracker.found ++ added ∧
        added.Perm (expression.walk.filterMap (scope.foreignCallAt tracker.types))) ∧
      tracker.resolve scope expression.sealed = tracker.resolve scope expression := by
  refine ⟨rfl, ⟨_, rfl, scope.calls_perm_walk tracker.types expression⟩, ?_⟩
  simp only [Tracker.resolve, scope.calls_sealed]

end PhpAudit
