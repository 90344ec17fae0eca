import Mathlib.Logic.Equiv.Basic
import PhpAudit.Proofs.EntryTables
import PhpAudit.Proofs.Respelling

/-!
Walks over respelled trees. A spelling is faithful if it tells variables apart, leaves `$this`
alone and names before a double colon the same types as before. The walk over a respelled tree then
goes step by step along with the walk over the tree itself: the same calls are found in the same
order, and the types are known for the respelled variables.
-/

namespace PhpAudit

namespace Entries

variable {Value : Type} {rename : String → String}

/-- A table under other keys. -/
def renamed (rename : String → String) (entries : Entries Value) : Entries Value :=
  List.map (fun entry => (rename entry.1, entry.2)) entries

theorem find?_renamed (injective : Function.Injective rename) (entries : Entries Value)
    (key : String) : find? (renamed rename entries) (rename key) = find? entries key := by
  induction entries with
  | nil => rfl
  | cons entry rest ih =>
      obtain ⟨known, value⟩ := entry
      simp only [renamed, List.map_cons] at ih ⊢
      rw [find?_cons, find?_cons, ih]
      simp only [injective.eq_iff]

theorem put_renamed (injective : Function.Injective rename) (entries : Entries Value)
    (key : String) (value : Value) :
    put (renamed rename entries) (rename key) value = renamed rename (put entries key value) := by
  induction entries with
  | nil => rfl
  | cons entry rest ih =>
      obtain ⟨known, old⟩ := entry
      simp only [renamed, List.map_cons] at ih ⊢
      unfold put
      by_cases same : known = key
      · simp [same]
      · simp [same, injective.ne same, ih]

theorem erase_renamed (injective : Function.Injective rename) (entries : Entries Value)
    (key : String) :
    erase (renamed rename entries) (rename key) = renamed rename (erase entries key) := by
  simp only [erase, renamed, List.filter_map]
  congr 1
  refine List.filter_congr fun entry _ => ?_
  simp [bne, injective.eq_iff]

end Entries

/-- Different variables stay different, `$this` stays what it is, and names before a double colon
stand for the same types as before. -/
structure Spelling.Faithful (spelling : Spelling) : Prop where
  injective : Function.Injective spelling.var
  this : spelling.var "$this" = "$this"
  reference : ∀ text, referencedType (spelling.reference text) = referencedType text

namespace Scope

variable {spelling : Spelling} (faithful : spelling.Faithful) (scope : Scope)
  (types : VariableTypes)

/-- The type of a static call is that of any other call on the type before the double colon. -/
theorem typeOf_staticMethodCall (span : Span) (target : Expr) (method : String)
    (arguments : List (Argument Expr)) :
    scope.typeOf types (.staticMethodCall span target method arguments) =
      scope.resultType (scope.referenceType types target) method := by
  cases target <;> rfl

/-- A name holds no calls, however it is written. -/
theorem calls_renamed (write : String → String) (expression : Expr) :
    scope.calls types (expression.renamed write) = scope.calls types expression := by
  cases expression <;> rfl

/-- The parts that are searched for calls are respelled one by one. -/
theorem calls_searched_respelled (spelling : Spelling) (expression : Expr) :
    (expression.respelled spelling).searched.flatMap (scope.calls types) =
      expression.searched.flatMap fun inner => scope.calls types (inner.respelled spelling) := by
  cases expression with
  | array span items form =>
      simp [Expr.respelled, Expr.searched, Expr.subexpressions, List.flatMap_map,
        List.flatMap_assoc, Option.toList_map]
  | matching span subject arms =>
      simp [Expr.respelled, Expr.searched, Expr.subexpressions, List.flatMap_map,
        List.flatMap_assoc]
  | _ =>
      simp [Expr.respelled, Expr.searched, Expr.subexpressions, List.flatMap_map, calls_renamed,
        Option.toList_map]

include faithful

/-- What a target respelled by itself says of its type holds for the type before a double colon. -/
theorem referenceType_respelled_of {target : Expr}
    (same : scope.typeOf (Entries.renamed spelling.var types) (target.respelled spelling) =
      scope.typeOf types target) :
    scope.referenceType (Entries.renamed spelling.var types)
        ((target.respelled spelling).renamed spelling.reference) =
      scope.referenceType types target := by
  cases target with
  | name span text => simp only [Expr.respelled, Expr.renamed, referenceType, faithful.reference]
  | _ => exact same

theorem typeOf_respelled (expression : Expr) :
    scope.typeOf (Entries.renamed spelling.var types) (expression.respelled spelling) =
      scope.typeOf types expression := by
  induction expression using Expr.induction_on_parts with
  | step expression ih =>
      cases expression with
      | var span name =>
          simp only [Expr.respelled, typeOf, Entries.find?_renamed faithful.injective]
          by_cases this : name = "$this"
          · simp [this, faithful.this]
          · have other : spelling.var name ≠ "$this" := fun same =>
              this (faithful.injective (same.trans faithful.this.symm))
            simp [this, other]
      | methodCall span object method arguments
      | nullsafeMethodCall span object method arguments =>
          simp only [Expr.respelled, typeOf, ih object (by simp [Expr.subexpressions])]
      | staticMethodCall span target method arguments =>
          have same := ih target (by simp [Expr.subexpressions])
          simp only [Expr.respelled, typeOf_staticMethodCall]
          rw [scope.referenceType_respelled_of faithful types same]
      | new span target arguments => cases target <;> rfl
      | _ => rfl

theorem foreignCallAt_respelled (expression : Expr) :
    scope.foreignCallAt (Entries.renamed spelling.var types) (expression.respelled spelling) =
      scope.foreignCallAt types expression := by
  unfold foreignCallAt
  congr 1
  cases expression with
  | methodCall span object method arguments | nullsafeMethodCall span object method arguments =>
      simp only [Expr.respelled, callAt, scope.typeOf_respelled faithful types]
  | staticMethodCall span target method arguments =>
      simp only [Expr.respelled, callAt]
      rw [scope.referenceType_respelled_of faithful types
        (scope.typeOf_respelled faithful types target)]
  | _ => rfl

theorem calls_respelled (expression : Expr) :
    scope.calls (Entries.renamed spelling.var types) (expression.respelled spelling) =
      scope.calls types expression := by
  induction expression using Expr.induction_on_parts with
  | step expression ih =>
      have parts : ∀ inner ∈ expression.searched,
          scope.calls (Entries.renamed spelling.var types) (inner.respelled spelling) =
            scope.calls types inner := fun inner member =>
        ih inner (expression.searched_perm.mem_iff.mp member)
      rw [calls_eq, calls_eq, calls_searched_respelled, List.flatMap_congr parts,
        scope.foreignCallAt_respelled faithful types]

end Scope

/-- A fold over changed items from a changed state ends in the changed state if every step does. -/
theorem foldl_map_of_forall {State Item : Type} {step : State → Item → State}
    {change : State → State} {replace : Item → Item} {items : List Item}
    (commutes : ∀ item ∈ items, ∀ state, step (change state) (replace item) =
      change (step state item)) (state : State) :
    (items.map replace).foldl step (change state) = change (items.foldl step state) := by
  induction items generalizing state with
  | nil => rfl
  | cons item rest ih =>
      rw [List.map_cons, List.foldl_cons, List.foldl_cons, commutes item List.mem_cons_self,
        ih fun other member => commutes other (List.mem_cons_of_mem item member)]

namespace Tracker

/-- The same calls, and the types under other names of variables. -/
def renamed (rename : String → String) (tracker : Tracker) : Tracker :=
  { tracker with types := Entries.renamed rename tracker.types }

section Faithful

variable {spelling : Spelling} (faithful : spelling.Faithful) (scope : Scope)

include faithful

theorem resolve_respelled (tracker : Tracker) (expression : Expr) :
    (tracker.renamed spelling.var).resolve scope (expression.respelled spelling) =
      (tracker.resolve scope expression).renamed spelling.var := by
  simp only [resolve, renamed, scope.calls_respelled faithful]

theorem setType_respelled (tracker : Tracker) (name : String) (type : Option String) :
    (tracker.renamed spelling.var).setType (spelling.var name) type =
      (tracker.setType name type).renamed spelling.var := by
  cases type with
  | some type => simp only [setType, renamed, Entries.put_renamed faithful.injective]
  | none => simp only [setType, renamed, Entries.erase_renamed faithful.injective]

theorem assign_respelled (tracker : Tracker) (target value : Expr) :
    (tracker.renamed spelling.var).assign scope (target.respelled spelling)
        (value.respelled spelling) =
      (tracker.assign scope target value).renamed spelling.var := by
  have typed : scope.typeOf (tracker.renamed spelling.var).types (value.respelled spelling) =
      scope.typeOf tracker.types value := scope.typeOf_respelled faithful tracker.types value
  unfold assign
  rw [typed, resolve_respelled faithful, ← resolve_respelled faithful scope _ target]
  cases target with
  | var span name => simp only [Expr.respelled, setType_respelled faithful]
  | _ => rfl

theorem perform_respelled (tracker : Tracker) (expression : Expr) :
    (tracker.renamed spelling.var).perform scope (expression.respelled spelling) =
      (tracker.perform scope expression).renamed spelling.var := by
  have resolved := resolve_respelled faithful scope tracker expression
  cases expression with
  | assignment span target operator value byRef =>
      cases operator with
      | assign => exact assign_respelled faithful scope tracker target value
      | _ => exact resolved
  | _ => exact resolved

/-- A walk through a respelled statement keeps step with the walk through the statement. -/
theorem walk_respelled (tracker : Tracker) (statement : Stmt) :
    walk scope (tracker.renamed spelling.var) (statement.respelled spelling) =
      (walk scope tracker statement).renamed spelling.var := by
  induction statement using Stmt.induction_on_children generalizing tracker with
  | step statement ih =>
      rw [walk_eq_steps, walk_eq_steps, Stmt.respelled_steps]
      refine foldl_map_of_forall (fun step member tracker => ?_) tracker
      cases step with
      | perform expression => exact perform_respelled faithful scope tracker expression
      | resolve expression => exact resolve_respelled faithful scope tracker expression
      | enter inner => exact ih inner (Stmt.mem_children_of_enter member) tracker

theorem walkAll_respelled (tracker : Tracker) (statements : List Stmt) :
    walkAll scope (tracker.renamed spelling.var) (statements.map (Stmt.respelled spelling)) =
      (walkAll scope tracker statements).renamed spelling.var := by
  rw [walkAll_eq_foldl, walkAll_eq_foldl]
  exact foldl_map_of_forall
    (fun statement _ tracker => walk_respelled faithful scope tracker statement) tracker

end Faithful

/-- The names of variables do not matter. If variables are renamed so that different ones stay
different and `$this` stays what it is, in the statements as well as in the types known before, a
walk finds the same calls in the same order, and in the end the types are known for the renamed
variables. -/
theorem walkAll_renamed {rename : String → String} (injective : Function.Injective rename)
    (this : rename "$this" = "$this") (scope : Scope) (tracker : Tracker)
    (statements : List Stmt) :
    let other := walkAll scope
      { tracker with types := Entries.renamed rename tracker.types }
      (statements.map (Stmt.respelled { var := rename }))
    other.found = (walkAll scope tracker statements).found ∧
      other.types = Entries.renamed rename (walkAll scope tracker statements).types := by
  have faithful : Spelling.Faithful { var := rename } := ⟨injective, this, fun _ => rfl⟩
  intro other
  have same : other = (walkAll scope tracker statements).renamed rename :=
    walkAll_respelled faithful scope tracker statements
  rw [same]
  exact ⟨rfl, rfl⟩

/-- `$a = new A(); $b->m();` -/
def twoVariables : List Stmt :=
  [.expression ⟨1, 1, 0⟩
      (.assignment ⟨1, 1, 0⟩ (.var ⟨1, 1, 0⟩ "$a") .assign
        (.new ⟨1, 6, 5⟩ (.name ⟨1, 10, 9⟩ "A") []) false),
    .expression ⟨1, 15, 14⟩ (.methodCall ⟨1, 15, 14⟩ (.var ⟨1, 15, 14⟩ "$b") "m" [])]

theorem walkAll_renamed_swapped :
    Function.Injective (Equiv.swap "$a" "$b") ∧ Equiv.swap "$a" "$b" "$this" = "$this" ∧
      (let other := walkAll {} { types := [("$a", "B")] }
        (twoVariables.map (Stmt.respelled { var := Equiv.swap "$a" "$b" }))
      other.found = [⟨"m", some "B", ⟨1, 15, 14⟩⟩] ∧
        other.types = [("$a", "B"), ("$b", "A")]) := by
  have this : Equiv.swap "$a" "$b" "$this" = "$this" := by decide
  obtain ⟨found, types⟩ := walkAll_renamed (Equiv.swap "$a" "$b").injective this {}
    { types := [("$b", "B")] } twoVariables
  exact ⟨(Equiv.swap "$a" "$b").injective, this, found, types⟩

end Tracker

end PhpAudit
