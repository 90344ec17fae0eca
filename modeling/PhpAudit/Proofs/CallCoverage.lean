import PhpAudit.Proofs.ScopeIsolation
import PhpAudit.Proofs.WalkSteps

/-!
Which expressions of a file the search for foreign calls looks at. A file is searched by walks, one
through each method of a declaration and one through each other top-level statement. Every
expression of the flattened file is met by one of them, unless it lies in an interface or in a
statement that no walk enters: the block of a declare statement, or a declaration or namespace that
stands inside another statement.
-/

namespace PhpAudit

def Declaration.isInterface (declaration : Declaration Expr Stmt) : Bool :=
  match declaration.kind with
  | .interfaceType _ => true
  | _ => false

/-- A statement that is walked as a whole, with the declaration around it. -/
structure BodyWalk where
  scope : Scope
  root : Stmt

namespace BodyWalk

def found (walk : BodyWalk) : List ForeignCall := (Tracker.walk walk.scope {} walk.root).found

/-- The walk looks at an expression of `owner` when the variables have the types `known`. -/
def Meets (walk : BodyWalk) (owner : Stmt) (expression : Expr) (known : VariableTypes) : Prop :=
  Stmt.Meets walk.scope owner expression known {} walk.root

end BodyWalk

/-- The walks through the methods that have a body; interfaces have none. -/
def Declaration.walks (registry : TypeRegistry) (declaration : Declaration Expr Stmt) :
    List BodyWalk :=
  if declaration.isInterface then []
  else
    declaration.methods.filterMap fun method => method.body.map fun content =>
      ⟨⟨some declaration.name.value, registry.methodTypes declaration⟩, .block content⟩

mutual

def Stmt.walks (registry : TypeRegistry) : Stmt → List BodyWalk
  | .package _ _ statements _ => walksOf registry statements
  | .declaration content => content.walks registry
  | statement => [⟨{}, statement⟩]

def walksOf (registry : TypeRegistry) : List Stmt → List BodyWalk
  | [] => []
  | statement :: rest => statement.walks registry ++ walksOf registry rest

end

theorem walksOf_eq_flatMap (registry : TypeRegistry) (statements : List Stmt) :
    walksOf registry statements = statements.flatMap (Stmt.walks registry) := by
  induction statements with
  | nil => rfl
  | cons statement rest ih => rw [walksOf, ih, List.flatMap_cons]

theorem Declaration.foreignCalls_eq_walks (registry : TypeRegistry)
    (declaration : Declaration Expr Stmt) (walked : declaration.isInterface = false) :
    declaration.foreignCalls registry =
      (declaration.walks registry).flatMap BodyWalk.found := by
  rw [Declaration.walks, walked, if_neg Bool.false_ne_true, List.filterMap_eq_flatMap_toList,
    List.flatMap_assoc]
  refine List.flatMap_congr fun method _ => ?_
  cases method.body with
  | none => rfl
  | some content =>
      rcases content with ⟨span, statements⟩
      simp [BodyWalk.found, Tracker.walk, Tracker.walkBlock]

theorem Stmt.foreignCalls_eq_walks (registry : TypeRegistry) (top : Stmt) :
    top.foreignCalls registry = (top.walks registry).flatMap BodyWalk.found := by
  induction top using Stmt.induction_on_children with
  | step top ih =>
      cases top with
      | package span name statements braced =>
          rw [Stmt.foreignCalls, Stmt.walks, foreignCallsOf_eq_flatMap, walksOf_eq_flatMap,
            List.flatMap_assoc]
          exact List.flatMap_congr ih
      | declaration content =>
          have walked := content.foreignCalls_eq_walks registry
          rcases content with ⟨span, name, kind, members⟩
          cases kind with
          | interfaceType parents => rfl
          | _ => exact walked rfl
      | _ => simp [Stmt.foreignCalls, Stmt.walks, BodyWalk.found, Tracker.walk]

theorem mem_methodStatements_iff {declaration : Declaration Expr Stmt} {statement : Stmt} :
    statement ∈ Stmt.methodStatements declaration.members ↔
      ∃ method ∈ declaration.methods, ∃ content, method.body = some content ∧
        statement ∈ content.statements := by
  simp only [Stmt.methodStatements, Declaration.methods, List.mem_flatMap, List.mem_filterMap]
  constructor
  · rintro ⟨member, present, inside⟩
    rcases member with ⟨⟨_, _, _, _, _, _ | content, _⟩⟩ | _ | _ | _ | _
    case method.some => exact ⟨_, ⟨_, present, rfl⟩, content, rfl, inside⟩
    all_goals cases inside
  · rintro ⟨method, ⟨member, present, chosen⟩, content, body, inside⟩
    cases member with
    | method own =>
        cases chosen
        refine ⟨_, present, ?_⟩
        rcases method with ⟨_, _, _, _, _, _ | own, _⟩
        · cases body
        · cases body
          exact inside
    | _ => cases chosen

namespace Stmt

/-- The search through a top-level statement stops at `closed`: at an interface, or at a statement
that a walk comes to and does not enter. -/
def Bars (registry : TypeRegistry) (top closed : Stmt) : Prop :=
  (∃ content ∈ top.declarations, content.isInterface = true ∧ closed = .declaration content) ∨
    ∃ walk ∈ top.walks registry, walk.root.LeadsTo closed ∧ closed.isEntered = false

/-- The statement is on a walk, or it lies inside a statement that is barred. -/
def OnWalk (registry : TypeRegistry) (top statement : Stmt) : Prop :=
  (∃ walk ∈ top.walks registry, walk.root.LeadsTo statement) ∨
    ∃ closed, top.Bars registry closed ∧ statement ∈ closed.children.flatMap flatten

variable {registry : TypeRegistry}

theorem OnWalk.of_root {top statement : Stmt} {walk : BodyWalk}
    (walked : walk ∈ top.walks registry) (below : statement ∈ walk.root.flatten) :
    top.OnWalk registry statement := by
  rcases leadsTo_of_mem_flatten below with leads | ⟨closed, leads, barred, inside⟩
  · exact .inl ⟨walk, walked, leads⟩
  · exact .inr ⟨closed, .inr ⟨walk, walked, leads, barred⟩, inside⟩

theorem OnWalk.in_package {span : Span} {name : Option String} {statements : List Stmt}
    {braced : Bool} {inner statement : Stmt} (child : inner ∈ statements)
    (walked : inner.OnWalk registry statement) :
    (package span name statements braced).OnWalk registry statement := by
  have walks : ∀ walk ∈ inner.walks registry,
      walk ∈ (package span name statements braced).walks registry := by
    intro walk member
    rw [Stmt.walks, walksOf_eq_flatMap]
    exact List.mem_flatMap.mpr ⟨inner, child, member⟩
  rcases walked with ⟨walk, member, leads⟩ | ⟨closed, bars, inside⟩
  · exact .inl ⟨walk, walks walk member, leads⟩
  · refine .inr ⟨closed, ?_, inside⟩
    rcases bars with ⟨content, declared, rest⟩ | ⟨walk, member, rest⟩
    · refine .inl ⟨content, ?_, rest⟩
      rw [Stmt.declarations, declarationsOf_eq_flatMap]
      exact List.mem_flatMap.mpr ⟨inner, child, declared⟩
    · exact .inr ⟨walk, walks walk member, rest⟩

theorem OnWalk.in_declaration {content : Declaration Expr Stmt} {statement : Stmt}
    (below : statement ∈ (methodStatements content.members).flatMap flatten) :
    (declaration content).OnWalk registry statement := by
  cases interface : content.isInterface with
  | true =>
      exact .inr ⟨.declaration content, .inl ⟨content, List.mem_singleton_self _, interface, rfl⟩,
        below⟩
  | false =>
      obtain ⟨outer, listed, deeper⟩ := List.mem_flatMap.mp below
      obtain ⟨method, declared, block, body, inside⟩ := mem_methodStatements_iff.mp listed
      have walked : ⟨⟨some content.name.value, registry.methodTypes content⟩, .block block⟩ ∈
          (declaration content).walks registry := by
        simp only [Stmt.walks, Declaration.walks, interface, Bool.false_eq_true, if_false,
          List.mem_filterMap]
        exact ⟨method, declared, by rw [body]; rfl⟩
      refine .of_root walked ?_
      rw [flatten_eq]
      exact List.mem_cons_of_mem _ (List.mem_flatMap.mpr ⟨outer, inside, deeper⟩)

/-- Namespaces and declarations are not walked themselves, but they have no expressions. -/
theorem onWalk_of_mem_flatten (registry : TypeRegistry) {top statement : Stmt}
    (member : statement ∈ top.flatten) (speaks : statement.ownExpressions ≠ []) :
    top.OnWalk registry statement := by
  induction top using Stmt.induction_on_children with
  | step top ih =>
      have parts := member
      rw [flatten_eq] at parts
      cases top with
      | package span name statements braced =>
          rcases List.mem_cons.mp parts with rfl | below
          · exact absurd rfl speaks
          · obtain ⟨inner, child, deeper⟩ := List.mem_flatMap.mp below
            exact (ih inner child deeper).in_package child
      | declaration content =>
          rcases List.mem_cons.mp parts with rfl | below
          · exact absurd rfl speaks
          · exact .in_declaration below
      | _ => exact .of_root (List.mem_singleton_self _) member

end Stmt

/-- The search for foreign calls reports exactly the foreign calls at the expressions that its
walks meet, and its walks meet every expression of the flattened file that does not lie inside a
barred statement. -/
theorem Check.foreignCalls_coverage (settings : Settings) (file : SourceFile) :
    (∀ finding, finding ∈ Check.foreignCalls.findings settings file ↔
      ∃ top ∈ file.statements, ∃ walk ∈ top.walks file.types, ∃ owner expression known,
        walk.Meets owner expression known ∧
        ∃ node ∈ expression.walk, ∃ call, walk.scope.foreignCallAt known node = some call ∧
          call.finding = finding) ∧
    ∀ top ∈ file.statements, ∀ statement ∈ top.flatten,
      ∀ expression ∈ statement.ownExpressions,
        (∃ walk ∈ top.walks file.types, ∃ known, walk.Meets statement expression known) ∨
        ∃ closed, top.Bars file.types closed ∧
          statement ∈ closed.children.flatMap Stmt.flatten := by
  constructor
  · intro finding
    simp only [Check.findings, callsToOthers, Stmt.foreignCalls_eq_walks, List.mem_flatMap,
      List.mem_map, BodyWalk.found, Tracker.mem_found_iff, BodyWalk.Meets]
    constructor
    · rintro ⟨top, listed, call, ⟨walk, walked, owner, expression, known, meets, node, inside,
        foreign⟩, rfl⟩
      exact ⟨top, listed, walk, walked, owner, expression, known, meets, node, inside, call,
        foreign, rfl⟩
    · rintro ⟨top, listed, walk, walked, owner, expression, known, meets, node, inside, call,
        foreign, rfl⟩
      exact ⟨top, listed, call, ⟨walk, walked, owner, expression, known, meets, node, inside,
        foreign⟩, rfl⟩
  · intro top listed statement member expression own
    rcases Stmt.onWalk_of_mem_flatten file.types member (List.ne_nil_of_mem own) with
      ⟨walk, walked, leads⟩ | barred
    · exact .inl ⟨walk, walked, leads.meets own walk.scope {}⟩
    · exact .inr barred

/-- A call in the block of a declare statement is in the flattened file, and no walk meets it. -/
theorem Check.foreignCalls_coverage_declare :
    let call : Stmt := .expression {} (.methodCall {} (.var {} "$a") "b" [])
    let top : Stmt := .declare {} [] (some ⟨{}, [call]⟩)
    let file : SourceFile := ⟨"", [], [top]⟩
    Check.foreignCalls.findings [] file = [] ∧ call ∈ top.flatten ∧
      ∃ closed, top.Bars file.types closed ∧ call ∈ closed.children.flatMap Stmt.flatten := by
  intro call top file
  have flattened : call ∈ top.flatten := by
    simp [top, Stmt.flatten_eq, Stmt.children]
  refine ⟨rfl, flattened, ?_⟩
  have covered := (Check.foreignCalls_coverage [] file).2 top (List.mem_singleton_self _) call
    flattened _ (List.mem_singleton_self _)
  rcases covered with ⟨walk, walked, known, meets⟩ | barred
  · cases List.mem_singleton.mp walked
    exact absurd rfl (Stmt.Meets.steps_ne_nil meets)
  · exact barred

end PhpAudit
