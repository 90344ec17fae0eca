import PhpAudit.Proofs.WalkTraces

/-!
Where the type of a variable comes from. At every point of a walk the type recorded for a variable
is that of the value in the last simple assignment to it which was a statement of its own. Other
writes, in the middle of an expression, with another operator, by a loop or by a catch clause, do
not count, and a type outlives them.
-/

namespace PhpAudit

/-- A write to a variable, with the value when it is a simple assignment. -/
structure Write where
  name : String
  value : Option Expr

def Expr.write? : Expr → Option Write
  | assignment _ target .assign value _ => target.variable?.map fun label => ⟨label, some value⟩
  | assignment _ target _ _ _ => target.variable?.map fun label => ⟨label, none⟩
  | _ => none

namespace Moment

/-- All writes to variables: by an assignment anywhere in the expression, or by the loop or catch
clause. -/
def writes : Moment → List Write
  | perform expression | resolve expression => expression.walk.filterMap Expr.write?
  | bind name => [⟨name, none⟩]

/-- The write of an assignment that is a statement of its own. -/
def ownWrites (moment : Moment) : List Write :=
  moment.assignment?.toList.map fun assignment => ⟨assignment.name, some assignment.value⟩

end Moment

/-- The types of the variables when a fresh walk has come through some moments. -/
def Scope.typesAfter (scope : Scope) (past : List Moment) : VariableTypes :=
  (past.foldl (Tracker.attend scope) {}).types

/-- The last write to a variable in some moments has the value `value` and comes after `before`. -/
def LastWrite (writes : Moment → List Write) (past : List Moment) (name : String)
    (before : List Moment) (value : Option Expr) : Prop :=
  ∃ moment after, past = before ++ moment :: after ∧ ⟨name, value⟩ ∈ writes moment ∧
    ∀ later ∈ after, ∀ write ∈ writes later, write.name ≠ name

theorem exists_lastWrite (writes : Moment → List Write) (past : List Moment) (name : String) :
    (∀ moment ∈ past, ∀ write ∈ writes moment, write.name ≠ name) ∨
      ∃ before value, LastWrite writes past name before value := by
  induction past with
  | nil => exact .inl (by simp)
  | cons moment rest ih =>
      rcases ih with unwritten | ⟨before, value, last, after, rfl, member, unwritten⟩
      · by_cases now : ∃ write ∈ writes moment, write.name = name
        · obtain ⟨write, member, rfl⟩ := now
          exact .inr ⟨[], write.value, moment, rest, rfl, member, unwritten⟩
        · refine .inl ?_
          intro other present write member same
          rcases List.mem_cons.mp present with rfl | later
          · exact now ⟨write, member, same⟩
          · exact unwritten other later write member same
      · exact .inr ⟨moment :: before, value, last, after, rfl, member, unwritten⟩

/-- A write in the final moment is the last one. -/
theorem LastWrite.of_final {writes : Moment → List Write} {past before : List Moment}
    {moment : Moment} {name : String} {value : Option Expr}
    (last : LastWrite writes (past ++ [moment]) name before value)
    (now : ∃ write ∈ writes moment, write.name = name) :
    before = past ∧ ⟨name, value⟩ ∈ writes moment := by
  obtain ⟨found, after, split, member, unwritten⟩ := last
  rcases List.eq_nil_or_concat after with rfl | ⟨others, final, rfl⟩
  · obtain ⟨rfl, same⟩ := List.append_inj' split rfl
    exact ⟨rfl, List.singleton_inj.mp same ▸ member⟩
  · have ends : past ++ [moment] = (before ++ found :: others) ++ [final] := by
      simpa using split
    obtain ⟨-, same⟩ := List.append_inj' ends rfl
    obtain ⟨write, present, named⟩ := now
    have silent := unwritten final (by simp)
    exact absurd named (silent write (List.singleton_inj.mp same ▸ present))

namespace Scope

variable (scope : Scope)

theorem find?_assign (types : VariableTypes) (assignment : Assignment) (name : String) :
    Entries.find? (scope.assign types assignment) name =
      if name = assignment.name then scope.typeOf types assignment.value
      else Entries.find? types name := by
  unfold assign
  cases scope.typeOf types assignment.value with
  | some type => exact Entries.find?_put types assignment.name name type
  | none => exact Entries.find?_erase types assignment.name name

theorem find?_foldl_of_unwritten {name : String} {moments : List Moment}
    (unwritten : ∀ moment ∈ moments, ∀ write ∈ moment.ownWrites, write.name ≠ name)
    (tracker : Tracker) :
    Entries.find? (moments.foldl (Tracker.attend scope) tracker).types name =
      Entries.find? tracker.types name := by
  induction moments generalizing tracker with
  | nil => rfl
  | cons moment rest ih =>
      have silent := unwritten moment List.mem_cons_self
      rw [List.foldl_cons, ih fun later present => unwritten later (List.mem_cons_of_mem _ present),
        Tracker.types_attend]
      cases given : moment.assignment? with
      | none => rfl
      | some assignment =>
          have other : assignment.name ≠ name :=
            silent ⟨assignment.name, some assignment.value⟩ (by simp [Moment.ownWrites, given])
          exact (find?_assign scope _ assignment name).trans (if_neg (Ne.symm other))

theorem find?_typesAfter_of_lastWrite {past before : List Moment} {name : String} {value : Expr}
    (last : LastWrite Moment.ownWrites past name before (some value)) :
    Entries.find? (scope.typesAfter past) name = scope.typeOf (scope.typesAfter before) value := by
  obtain ⟨moment, after, rfl, member, unwritten⟩ := last
  rw [typesAfter, List.foldl_append, List.foldl_cons, find?_foldl_of_unwritten scope unwritten,
    Tracker.types_attend]
  cases given : moment.assignment? with
  | none => simp [Moment.ownWrites, given] at member
  | some assignment =>
      obtain ⟨rfl, rfl⟩ : assignment.name = name ∧ assignment.value = value := by
        simpa [Moment.ownWrites, given, eq_comm] using member
      exact (find?_assign scope _ assignment _).trans (if_pos rfl)

theorem lastWrite_of_find?_typesAfter {past : List Moment} {name type : String}
    (known : Entries.find? (scope.typesAfter past) name = some type) :
    ∃ before value, LastWrite Moment.ownWrites past name before (some value) ∧
      scope.typeOf (scope.typesAfter before) value = some type := by
  rcases exists_lastWrite Moment.ownWrites past name with unwritten | ⟨before, value, last⟩
  · rw [typesAfter, find?_foldl_of_unwritten scope unwritten] at known
    cases known
  · cases value with
    | none =>
        obtain ⟨moment, -, -, member, -⟩ := last
        simp [Moment.ownWrites] at member
    | some value =>
        refine ⟨before, value, last, ?_⟩
        rw [← scope.find?_typesAfter_of_lastWrite last, known]

end Scope

namespace Tracker

/-- At every point of a fresh walk the types recorded for the variables come from their last simple
assignments: what is recorded for a variable is the type that the value in the last assignment
statement to it had at that time, and nothing is recorded when that type was unknown. -/
theorem types_from_last_assignment (scope : Scope) (statements : List Stmt) :
    (walkAll scope {} statements).types = scope.typesAfter (statements.flatMap Stmt.trace) ∧
      ∀ past, past <+: statements.flatMap Stmt.trace → ∀ name,
        (∀ type, Entries.find? (scope.typesAfter past) name = some type →
          ∃ before value, LastWrite Moment.ownWrites past name before (some value) ∧
            scope.typeOf (scope.typesAfter before) value = some type) ∧
        ∀ before value, LastWrite Moment.ownWrites past name before (some value) →
          Entries.find? (scope.typesAfter past) name =
            scope.typeOf (scope.typesAfter before) value := by
  refine ⟨by rw [walkAll_eq_trace, Scope.typesAfter], fun past _ name => ⟨?_, ?_⟩⟩
  · intro type known
    exact scope.lastWrite_of_find?_typesAfter known
  · intro before value last
    exact scope.find?_typesAfter_of_lastWrite last

end Tracker

section Programs

/-- The statement `$x = new A();`. -/
def typedAssignment : Stmt :=
  .expression {} (.assignment {} (.var {} "$x") .assign (.new {} (.name {} "A") []) false)

/-- The expression `make()`. -/
def untypedValue : Expr := .call {} (.name {} "make") []

/-- The expression `$x = make()`. -/
def untypedAssignment : Expr := .assignment {} (.var {} "$x") .assign untypedValue false

attribute [local simp] Stmt.trace_eq Stmt.course Stmt.steps Step.turn Body.statements Moment.writes
  Expr.walk_eq Expr.subexpressions Expr.write? Expr.variable? untypedAssignment untypedValue

theorem trace_typedAssignment : typedAssignment.trace =
    [.perform (.assignment {} (.var {} "$x") .assign (.new {} (.name {} "A") []) false)] := by
  simp [typedAssignment]

theorem trace_untypedAssignment :
    (Stmt.expression {} untypedAssignment).trace = [.perform untypedAssignment] := by
  simp

/-- The type that `$x = new A();` records is gone after `$x = make();`. -/
theorem Tracker.types_from_last_assignment_reassigned :
    (typedAssignment.trace <+:
        [typedAssignment, .expression {} untypedAssignment].flatMap Stmt.trace ∧
      Entries.find? (Scope.typesAfter {} typedAssignment.trace) "$x" = some "A" ∧
      ∃ before value, LastWrite Moment.ownWrites typedAssignment.trace "$x" before (some value) ∧
        Scope.typeOf {} (Scope.typesAfter {} before) value = some "A") ∧
    LastWrite Moment.ownWrites
        ([typedAssignment, .expression {} untypedAssignment].flatMap Stmt.trace) "$x"
        typedAssignment.trace (some untypedValue) ∧
      Entries.find? (Scope.typesAfter {}
        ([typedAssignment, .expression {} untypedAssignment].flatMap Stmt.trace)) "$x" = none := by
  have whole : [typedAssignment, .expression {} untypedAssignment].flatMap Stmt.trace =
      typedAssignment.trace ++ [.perform untypedAssignment] := by
    rw [List.flatMap_cons, List.flatMap_singleton, trace_untypedAssignment]
  have first : typedAssignment.trace <+:
      [typedAssignment, .expression {} untypedAssignment].flatMap Stmt.trace :=
    whole ▸ List.prefix_append _ _
  have known : Entries.find? (Scope.typesAfter {} typedAssignment.trace) "$x" = some "A" := by
    rw [trace_typedAssignment]
    rfl
  have last : LastWrite Moment.ownWrites
      ([typedAssignment, .expression {} untypedAssignment].flatMap Stmt.trace) "$x"
      typedAssignment.trace (some untypedValue) :=
    ⟨.perform untypedAssignment, [], whole, List.mem_singleton_self _, by simp⟩
  have stems :=
    (types_from_last_assignment {} [typedAssignment, .expression {} untypedAssignment]).2
  exact ⟨⟨first, known, (stems _ first "$x").1 "A" known⟩, last,
    (stems _ (List.prefix_refl _) "$x").2 _ _ last⟩

/-! Types that outlive a write -/

/-- What is recorded for a variable after a walk comes from the last of all writes to it. -/
def Tracker.Fresh (scope : Scope) (statements : List Stmt) (name : String) : Prop :=
  ∀ type, Entries.find? (walkAll scope {} statements).types name = some type →
    ∃ before value,
      LastWrite Moment.writes (statements.flatMap Stmt.trace) name before (some value) ∧
        scope.typeOf (scope.typesAfter before) value = some type

theorem Tracker.not_fresh_of_final {scope : Scope} {statements : List Stmt} {name type : String}
    (known : Entries.find? (walkAll scope {} statements).types name = some type)
    {before : List Moment} {moment : Moment}
    (split : statements.flatMap Stmt.trace = before ++ [moment])
    (now : ∃ write ∈ moment.writes, write.name = name)
    (unknown : ∀ value, ⟨name, some value⟩ ∈ moment.writes →
      scope.typeOf (scope.typesAfter before) value = none) :
    ¬Fresh scope statements name := by
  intro fresh
  obtain ⟨earlier, value, last, typed⟩ := fresh type known
  rw [split] at last
  obtain ⟨rfl, member⟩ := last.of_final now
  rw [unknown value member] at typed
  cases typed

/-- Statements that write to `$x` in a condition, in an argument, in the value of another
assignment, with another operator, by a loop and by a catch clause. -/
def otherWrites : List Stmt :=
  [.ifElse {} untypedAssignment (.single (.block ⟨{}, []⟩)) [] none,
    .expression {} (.call {} (.name {} "run") [⟨{}, untypedAssignment, none, false⟩]),
    .expression {} (.assignment {} (.var {} "$y") .assign untypedAssignment false),
    .expression {} (.assignment {} (.var {} "$x") .concat (.literal {} .string "'b'") false),
    .foreachLoop {} (.var {} "$a") none false (.single (.block ⟨{}, []⟩)) (.var {} "$x"),
    .tryCatch {} ⟨{}, []⟩ [⟨{}, ["E"], some "$x", ⟨{}, []⟩⟩] none]

/-- Each of these statements ends with a write to `$x` that gives it no type, and the type that it
had is still recorded. -/
theorem otherWrites_final {later : Stmt} (member : later ∈ otherWrites) :
    Entries.find? (Tracker.walkAll {} {} [typedAssignment, later]).types "$x" = some "A" ∧
      ∃ before moment, later.trace = before ++ [moment] ∧
        (∃ write ∈ moment.writes, write.name = "$x") ∧
        ∀ value, ⟨"$x", some value⟩ ∈ moment.writes → value = untypedValue := by
  simp only [otherWrites, List.mem_cons, List.not_mem_nil, or_false] at member
  rcases member with rfl | rfl | rfl | rfl | rfl | rfl
  · exact ⟨rfl, [], .resolve untypedAssignment, by simp⟩
  · exact ⟨rfl, [], .perform (.call {} (.name {} "run") [⟨{}, untypedAssignment, none, false⟩]),
      by simp⟩
  · exact ⟨rfl, [], .perform (.assignment {} (.var {} "$y") .assign untypedAssignment false),
      by simp⟩
  · exact ⟨rfl, [], .perform
      (.assignment {} (.var {} "$x") .concat (.literal {} .string "'b'") false), by simp⟩
  · exact ⟨rfl, [.resolve (.var {} "$a")], .bind "$x", by simp⟩
  · exact ⟨rfl, [], .bind "$x", by simp⟩

theorem Tracker.stale_after_otherWrites :
    ¬∃ later ∈ otherWrites, Fresh {} [typedAssignment, later] "$x" := by
  rintro ⟨later, member, fresh⟩
  obtain ⟨known, before, moment, ends, now, untyped⟩ := otherWrites_final member
  have split : [typedAssignment, later].flatMap Stmt.trace =
      (typedAssignment.trace ++ before) ++ [moment] := by
    rw [List.flatMap_cons, List.flatMap_singleton, ends, List.append_assoc]
  refine not_fresh_of_final known split now ?_ fresh
  intro value written
  rw [untyped value written]
  rfl

end Programs

end PhpAudit
