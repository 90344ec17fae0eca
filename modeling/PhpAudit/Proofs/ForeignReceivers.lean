import PhpAudit.Proofs.CallChains
import PhpAudit.Proofs.CallCoverage
import PhpAudit.Proofs.CanonicalHints
import PhpAudit.Proofs.MethodTables
import PhpAudit.Proofs.WalkTraces

/-!
The types of receivers. Types get into a walk from the hints of methods, from the tables of traits,
with new objects and with the names before a double colon, and each of these brings them without a
backslash at the start. So the types of the variables are canonical at every moment, and a call is
reported exactly if the type of its receiver is unknown or names neither the enclosing declaration
nor its parent.
-/

namespace PhpAudit

/-! Tables of result types -/

theorem Declaration.Canonical.ownTypes {declaration : Declaration Expr Stmt}
    (canonical : declaration.Canonical) : Entries.Each IsCanonical declaration.ownTypes := by
  refine List.foldlRecOn (motive := Entries.Each IsCanonical) declaration.methods _ nofun ?_
  intro types each method listed
  split
  · rename_i result given
    obtain ⟨hint, present, named⟩ := Option.bind_eq_some_iff.mp given
    exact each.put _ (canonical method listed hint present result named)
  · exact each

namespace TypeRegistry

/-- The results of all registered methods are canonical. -/
def Canonical (registry : TypeRegistry) : Prop :=
  Entries.Each (Entries.Each IsCanonical) registry.types

theorem canonical_ofStatements {statements : List Stmt}
    (each : ∀ statement ∈ statements, statement.Canonical) :
    (ofStatements statements).Canonical := by
  refine List.foldlRecOn (motive := Entries.Each (Entries.Each IsCanonical))
    (declarationsOf statements) _ nofun ?_
  intro types registered declaration declared
  exact registered.put _ (canonical_of_mem_declarationsOf each declaration declared).ownTypes

theorem canonical_mergeTrait (declaration : Declaration Expr Stmt) {known methods : MethodTypes}
    (each : Entries.Each IsCanonical known) (offered : Entries.Each IsCanonical methods) :
    Entries.Each IsCanonical (mergeTrait declaration known methods) := by
  refine List.foldlRecOn (motive := Entries.Each IsCanonical) methods _ each ?_
  intro merged each entry listed
  split
  · exact each
  · exact each.put _ (offered entry listed)

namespace Canonical

variable {registry : TypeRegistry} (canonical : registry.Canonical)

include canonical

theorem get? {name : String} {methods : MethodTypes} (found : registry.get? name = some methods) :
    Entries.Each IsCanonical methods := by
  unfold TypeRegistry.get? at found
  split at found
  · rename_i registered
    cases found
    exact canonical.find? registered
  · split at found
    · exact canonical.find? found
    · cases found

theorem methodTypes {declaration : Declaration Expr Stmt} (own : declaration.Canonical) :
    Entries.Each IsCanonical (registry.methodTypes declaration) := by
  intro entry listed
  obtain ⟨merged, present, rfl⟩ := List.mem_map.mp listed
  dsimp only
  split
  -- The name of the declaration itself has become `self`.
  · exact isCanonical_of_mem_keywordTypes List.mem_cons_self
  · refine List.foldlRecOn (motive := Entries.Each IsCanonical) declaration.traitNames _
      own.ownTypes ?_ merged present
    intro known each trait mentioned
    split
    · rename_i methods found
      exact canonical_mergeTrait declaration each (canonical.get? found)
    · exact each

end Canonical

end TypeRegistry

/-! Types of expressions -/

theorem isCanonical_referencedType (text : String) : IsCanonical (referencedType text) := by
  unfold referencedType
  dsimp only
  split
  · exact isCanonical_of_mem_keywordTypes (by decide)
  split
  · exact isCanonical_of_mem_keywordTypes (by decide)
  · exact isCanonical_canonicalType text

/-- The segment stands behind the last backslash of a name, or it is the whole name. -/
def IsLastSegment (segment name : String) : Prop :=
  '\\' ∉ segment.toList ∧ (name = segment ∨ ∃ front, name = front ++ "\\" ++ segment)

theorem isLastSegment_iff {segment name : String} :
    IsLastSegment segment name ↔ lastSegment name = segment := by
  constructor
  · rintro ⟨plain, rfl | ⟨front, rfl⟩⟩
    · exact lastSegment_of_plain plain
    · exact lastSegment_append front plain
  · rintro rfl
    by_cases qualified : '\\' ∈ name.toList
    · obtain ⟨front, segment, rfl, plain⟩ := exists_segment qualified
      rw [lastSegment_append front plain]
      exact ⟨plain, .inr ⟨front, rfl⟩⟩
    · rw [lastSegment_of_plain qualified]
      exact ⟨qualified, .inl rfl⟩

namespace Scope

/-- The type of the receiver is unknown, or it is a canonical name that means neither the enclosing
declaration nor its parent. -/
def Foreign (scope : Scope) (receiver : Option String) : Prop :=
  ∀ type ∈ receiver, IsCanonical type ∧ type ∉ ["self", "static", "parent"] ∧
    ∀ segment, IsLastSegment segment type → scope.current ≠ some segment

variable {scope : Scope} {types : VariableTypes}

theorem foreign_iff_callsAnother {call : ForeignCall}
    (canonical : ∀ type ∈ call.receiver, IsCanonical type) :
    scope.Foreign call.receiver ↔ scope.callsAnother call = true := by
  rcases call with ⟨method, _ | type, span⟩
  · simp [Foreign, callsAnother]
  · have known : IsCanonical type := canonical type rfl
    have other : (scope.owns type = false) ↔
        type ∉ ["self", "static", "parent"] ∧ scope.current ≠ some (lastSegment type) := by
      rw [← Bool.not_eq_true, owns_iff, not_or]
    simp [Foreign, callsAnother, known, other, isLastSegment_iff]

section Canonical

variable (methods : Entries.Each IsCanonical scope.methods)
  (known : Entries.Each IsCanonical types)

include methods

theorem canonical_resultType (receiver : Option String) (method : String) :
    ∀ type ∈ scope.resultType receiver method, IsCanonical type := by
  intro type result
  unfold resultType at result
  split at result
  · cases result
  · split at result
    · exact methods.find? result
    · cases result

include known

theorem canonical_typeOf (expression : Expr) :
    ∀ type ∈ scope.typeOf types expression, IsCanonical type := by
  cases expression with
  | var span name =>
      intro type result
      unfold typeOf at result
      split at result
      · cases result
        exact isCanonical_of_mem_keywordTypes List.mem_cons_self
      · exact known.find? result
  | new span target arguments =>
      cases target with
      | name place text =>
          rintro type ⟨⟩
          exact isCanonical_canonicalType text
      | _ => rintro type ⟨⟩
  -- A call has its type from the method table, so nothing is asked of the type of its receiver.
  | methodCall span object method arguments => exact canonical_resultType methods _ method
  | nullsafeMethodCall span object method arguments => exact canonical_resultType methods _ method
  | staticMethodCall span target method arguments =>
      cases target <;> exact canonical_resultType methods _ method
  | _ => rintro type ⟨⟩

theorem canonical_referenceType (target : Expr) :
    ∀ type ∈ scope.referenceType types target, IsCanonical type := by
  have typed := canonical_typeOf methods known target
  cases target with
  | name span text =>
      intro type named
      obtain rfl : referencedType text = type := Option.some.inj named
      exact isCanonical_referencedType text
  | _ => exact typed

theorem canonical_callAt {node : Expr} {call : ForeignCall}
    (calls : scope.callAt types node = some call) :
    ∀ type ∈ call.receiver, IsCanonical type := by
  cases node with
  | methodCall span object method arguments =>
      cases calls
      exact canonical_typeOf methods known object
  | nullsafeMethodCall span object method arguments =>
      cases calls
      exact canonical_typeOf methods known object
  | staticMethodCall span target method arguments =>
      cases calls
      exact canonical_referenceType methods known target
  | _ => cases calls

theorem foreign_of_mem_calls {expression : Expr} {call : ForeignCall}
    (found : call ∈ scope.calls types expression) : scope.Foreign call.receiver := by
  rw [(scope.calls_perm_walk types expression).mem_iff] at found
  obtain ⟨node, inside, foreign⟩ := List.mem_filterMap.mp found
  obtain ⟨calls, another⟩ := Option.filter_eq_some_iff.mp foreign
  exact (foreign_iff_callsAnother (canonical_callAt methods known calls)).mpr another

theorem canonical_assign (assignment : Assignment) :
    Entries.Each IsCanonical (scope.assign types assignment) := by
  unfold assign
  split
  · rename_i type result
    exact known.put _ (canonical_typeOf methods known assignment.value type result)
  · exact known.erase _

end Canonical

end Scope

/-! Walks -/

namespace Tracker

variable {scope : Scope} (methods : Entries.Each IsCanonical scope.methods)

/-- The types of the variables are canonical, and the receivers of the calls found so far are
foreign. -/
structure Canonical (scope : Scope) (tracker : Tracker) : Prop where
  types : Entries.Each IsCanonical tracker.types
  found : ∀ call ∈ tracker.found, scope.Foreign call.receiver

include methods

theorem Canonical.attend {tracker : Tracker} (canonical : tracker.Canonical scope)
    (moment : Moment) : (Tracker.attend scope tracker moment).Canonical scope := by
  have looked : ∀ step expression, step.expression? = some expression →
      ∀ call ∈ (take scope tracker step).found, scope.Foreign call.receiver := by
    intro step expression looks call found
    rcases (mem_found_take scope looks tracker call).mp found with before | added
    · exact canonical.found call before
    · exact Scope.foreign_of_mem_calls methods canonical.types added
  refine ⟨?types, ?found⟩
  case types =>
    rw [types_attend]
    cases moment.assignment? with
    | none => exact canonical.types
    | some assignment => exact Scope.canonical_assign methods canonical.types assignment
  case found =>
    cases moment with
    | perform expression => exact looked (.perform expression) expression rfl
    | resolve expression => exact looked (.resolve expression) expression rfl
    | bind name => exact canonical.found

theorem canonical_foldl_attend (moments : List Moment) :
    (moments.foldl (Tracker.attend scope) {}).Canonical scope :=
  List.foldlRecOn moments _ ⟨nofun, nofun⟩ fun _ canonical moment _ =>
    canonical.attend methods moment

end Tracker

namespace BodyWalk

/-- What is known when the walk has come through some moments. -/
def after (walk : BodyWalk) (past : List Moment) : Tracker :=
  past.foldl (Tracker.attend walk.scope) {}

/-- The walk comes to a call of a method, with the type that the receiver has at that moment. -/
def Calls (walk : BodyWalk) (call : ForeignCall) : Prop :=
  ∃ owner expression known, walk.Meets owner expression known ∧
    ∃ node ∈ expression.walk, walk.scope.callAt known node = some call

/-- The result types of the methods are canonical, and so are the types of the variables at every
moment. Of the calls that the walk comes to, those with a foreign receiver are found. -/
structure Sound (walk : BodyWalk) : Prop where
  methods : Entries.Each IsCanonical walk.scope.methods
  moments : Tracker.walk walk.scope {} walk.root = walk.after walk.root.trace
  types : ∀ past, past <+: walk.root.trace → Entries.Each IsCanonical (walk.after past).types
  found : ∀ call, call ∈ walk.found ↔ walk.Calls call ∧ walk.scope.Foreign call.receiver

theorem sound_of_methods {walk : BodyWalk}
    (methods : Entries.Each IsCanonical walk.scope.methods) : walk.Sound where
  methods := methods
  moments := Tracker.walk_eq_trace walk.scope {} walk.root
  types past _ := (Tracker.canonical_foldl_attend methods past).types
  found call := by
    have whole : walk.found = (walk.after walk.root.trace).found :=
      congrArg Tracker.found (Tracker.walk_eq_trace walk.scope {} walk.root)
    constructor
    · intro found
      -- The invariant at the end of the trace speaks of all calls that were found on the way.
      have foreign : walk.scope.Foreign call.receiver :=
        (Tracker.canonical_foldl_attend methods walk.root.trace).found call (whole ▸ found)
      obtain ⟨owner, expression, known, meets, node, inside, reported⟩ :=
        (Tracker.mem_found_iff walk.scope walk.root).mp found
      have calls := (Option.filter_eq_some_iff.mp reported).1
      exact ⟨⟨owner, expression, known, meets, node, inside, calls⟩, foreign⟩
    · rintro ⟨⟨owner, expression, known, meets, node, inside, calls⟩, foreign⟩
      have another := (Scope.foreign_iff_callsAnother fun type receives =>
        (foreign type receives).1).mp foreign
      exact (Tracker.mem_found_iff walk.scope walk.root).mpr ⟨owner, expression, known, meets, node,
        inside, Option.filter_eq_some_iff.mpr ⟨calls, another⟩⟩

/-- Where a walk through a top-level statement goes: through the body of a method, with the name and
the method table of the class, trait or enum around it, or through a statement outside of these. -/
inductive Through (registry : TypeRegistry) (top : Stmt) : BodyWalk → Prop
  | body {declaration : Declaration Expr Stmt} {method : Method Expr Stmt} {content : Block Stmt}
      (declared : declaration ∈ top.declarations) (walked : declaration.isInterface = false)
      (own : method ∈ declaration.methods) (given : method.body = some content) :
      Through registry top
        ⟨⟨some declaration.name.value, registry.methodTypes declaration⟩, .block content⟩
  | outside {statement : Stmt} (plain : statement.declarations = []) :
      Through registry top ⟨{}, statement⟩

end BodyWalk

theorem Declaration.through_of_mem_walks {registry : TypeRegistry} {top : Stmt}
    {declaration : Declaration Expr Stmt} (declared : declaration ∈ top.declarations)
    {walk : BodyWalk} (member : walk ∈ declaration.walks registry) :
    walk.Through registry top := by
  unfold Declaration.walks at member
  split at member
  · cases member
  · rename_i walked
    obtain ⟨method, own, chosen⟩ := List.mem_filterMap.mp member
    obtain ⟨content, given, rfl⟩ := Option.map_eq_some_iff.mp chosen
    exact .body declared (Bool.eq_false_iff.mpr walked) own given

namespace Stmt

theorem through_of_mem_walks {registry : TypeRegistry} {top : Stmt} {walk : BodyWalk}
    (member : walk ∈ top.walks registry) : walk.Through registry top := by
  induction top using Stmt.induction_on_children with
  | step top ih =>
      cases top with
      | package span name statements braced =>
          rw [Stmt.walks, walksOf_eq_flatMap] at member
          obtain ⟨inner, child, inside⟩ := List.mem_flatMap.mp member
          cases ih inner child inside with
          | outside plain => exact .outside plain
          | body declared walked own given =>
              refine .body ?_ walked own given
              rw [declarations, declarationsOf_eq_flatMap]
              exact List.mem_flatMap.mpr ⟨inner, child, declared⟩
      | declaration content =>
          exact Declaration.through_of_mem_walks (List.mem_singleton_self content) member
      | _ =>
          cases List.mem_singleton.mp member
          exact .outside rfl

/-- The calls reported for a top-level statement of a text are those that its walks find. In each
walk the result types of the methods and, at every moment, the types of the variables are canonical.
A call that the walk comes to is found exactly if the type of its receiver is unknown, or canonical,
none of the reflexive words and in its last segment not the name of the enclosing declaration. -/
theorem foreignCalls_canonical_and_foreign {text : String} {statements : List Stmt}
    (parsed : parse text = .ok statements) {top : Stmt} (listed : top ∈ statements) :
    top.foreignCalls (.ofStatements statements) =
        (top.walks (.ofStatements statements)).flatMap BodyWalk.found ∧
      ∀ walk ∈ top.walks (.ofStatements statements),
        walk.Through (.ofStatements statements) top ∧ walk.Sound := by
  have canonical := parse_canonical parsed
  have registered := TypeRegistry.canonical_ofStatements canonical
  refine ⟨foreignCalls_eq_walks _ top, fun walk member => ?_⟩
  have through := through_of_mem_walks member
  refine ⟨through, BodyWalk.sound_of_methods ?_⟩
  cases through with
  | outside plain => exact nofun
  | body declared walked own given =>
      exact registered.methodTypes (canonical top listed _ declared)

end Stmt

section Programs

/-- A class with a method whose result is named with a backslash at the start. The method calls
itself, and another method on the result. -/
def qualifiedText : String :=
  "<?php class A\x7bfunction b():\\B\x7b$x=$this->b();$x->c();\x7d\x7d"

/-- The statements `$x=$this->b();` and `$x->c();`. -/
def qualifiedBody : Block Stmt :=
  ⟨⟨1, 30, 29⟩,
    [.expression ⟨1, 31, 30⟩ (.assignment ⟨1, 31, 30⟩ (.var ⟨1, 31, 30⟩ "$x") .assign
      (.methodCall ⟨1, 34, 33⟩ (.var ⟨1, 34, 33⟩ "$this") "b" []) false),
    .expression ⟨1, 45, 44⟩ (.methodCall ⟨1, 45, 44⟩ (.var ⟨1, 45, 44⟩ "$x") "c" [])]⟩

def qualifiedClass : Stmt :=
  .declaration ⟨⟨1, 7, 6⟩, ⟨⟨1, 13, 12⟩, "A"⟩, .classType [] none [],
    [.method ⟨⟨1, 15, 14⟩, ⟨⟨1, 24, 23⟩, "b"⟩, [], [], some (.named ⟨1, 28, 27⟩ "\\B"),
      some qualifiedBody, false⟩]⟩

def qualifiedStatements : List Stmt := [.openingTag {} "<?php", qualifiedClass]

/-- The result `\B` is known as `B`, so `$x` has that type when `c` is called on it, and the call is
reported with it. The call of `b` is not reported. -/
theorem Stmt.foreignCalls_canonical_and_foreign_result :
    parse qualifiedText = .ok qualifiedStatements ∧ qualifiedClass ∈ qualifiedStatements ∧
      qualifiedClass.foreignCalls (.ofStatements qualifiedStatements) =
        [⟨"c", some "B", ⟨1, 45, 44⟩⟩] ∧
      ∃ walk ∈ qualifiedClass.walks (.ofStatements qualifiedStatements),
        walk.scope = ⟨some "A", [("b", "B")]⟩ ∧
        (walk.after walk.root.trace).types = [("$x", "B")] ∧
        walk.Through (.ofStatements qualifiedStatements) qualifiedClass ∧ walk.Sound ∧
        walk.scope.Foreign (some "B") := by
  have parsed : parse qualifiedText = .ok qualifiedStatements := rfl
  have listed : qualifiedClass ∈ qualifiedStatements := by simp [qualifiedStatements]
  have walked : ⟨⟨some "A", [("b", "B")]⟩, .block qualifiedBody⟩ ∈
      qualifiedClass.walks (.ofStatements qualifiedStatements) := List.mem_singleton_self _
  obtain ⟨-, each⟩ := foreignCalls_canonical_and_foreign parsed listed
  obtain ⟨through, sound⟩ := each _ walked
  have found : ⟨"c", some "B", ⟨1, 45, 44⟩⟩ ∈
      BodyWalk.found ⟨⟨some "A", [("b", "B")]⟩, .block qualifiedBody⟩ := List.mem_singleton_self _
  exact ⟨parsed, listed, rfl, _, walked, rfl, by rw [← sound.moments]; rfl, through, sound,
    ((sound.found _).mp found).2⟩

end Programs

end PhpAudit
