import Mathlib.Data.List.Perm.Basic
import PhpAudit.Check.Rule
import PhpAudit.Proofs.Descendants

/-!
Which statements count for a method. A declaration may stand in the body of a method, and its
methods have statements of their own; flattening the outer body comes to them as well. So what is
found in a method is what is found in its own statements together with all that is found in the
methods of the declarations among them, and the check for shared state, which looks at every method
of a file, reports a write once for each method around it that it looks at.
-/

namespace PhpAudit

/-- Whether the part is a method of a declaration. -/
def Ancestor.isMethod (ancestor : Ancestor) : Bool :=
  match ancestor.region with
  | .method _ => true
  | _ => false

namespace Stmt

/-- The methods of a statement, if it is a declaration. -/
def methods : Stmt → List (Method Expr Stmt)
  | declaration content => content.methods
  | _ => []

/-- The statements inside a statement, and itself, that lie in no method of a declaration there. -/
def ownStatements (statement : Stmt) : List Stmt :=
  statement.visited fun ancestor => !ancestor.isMethod

end Stmt

namespace Method

/-- Everything in the body of a method. -/
def statements (method : Method Expr Stmt) : List Stmt :=
  method.body.toList.flatMap fun content => content.statements.flatMap Stmt.flatten

/-- The statements in the body of a method that lie in no other method there. -/
def ownStatements (method : Method Expr Stmt) : List Stmt :=
  method.body.toList.flatMap fun content => content.statements.flatMap Stmt.ownStatements

/-- The methods of the declarations among the own statements of a method. -/
def innerMethods (method : Method Expr Stmt) : List (Method Expr Stmt) :=
  method.ownStatements.flatMap Stmt.methods

end Method

namespace Stmt

theorem entered_declaration (content : Declaration Expr Stmt) :
    (declaration content).entered (fun ancestor => !ancestor.isMethod) = [] := by
  simp [entered, regions, Ancestor.isMethod, List.flatMap_assoc, List.flatMap_map]

theorem entered_of_not_declaration {statement : Stmt}
    (other : ∀ content, statement ≠ declaration content) :
    statement.entered (fun ancestor => !ancestor.isMethod) = statement.children := by
  cases statement with
  | declaration content => exact absurd rfl (other content)
  | ifElse span condition body elseIfs otherwise =>
      simp [entered, regions, children, Ancestor.isMethod, List.flatMap_map]
  | _ => simp [entered, regions, Ancestor.isMethod]

/-- The list of a flattening, split into own statements and those of the methods among them. -/
def splitByMethod (own : List Stmt) : List Stmt :=
  own ++ (own.flatMap methods).flatMap Method.statements

theorem flatMap_flatten_perm {statements : List Stmt}
    (each : ∀ statement ∈ statements,
      statement.flatten.Perm (splitByMethod statement.ownStatements)) :
    (statements.flatMap flatten).Perm (splitByMethod (statements.flatMap ownStatements)) := by
  refine (List.Perm.flatMap_left _ each).trans ?_
  refine .trans (List.flatMap_append_perm _ _ _).symm ?_
  simp only [splitByMethod, List.flatMap_assoc]
  exact .refl _

/-- A flattening holds the own statements of a statement, and everything in the methods of the
declarations among them. -/
theorem flatten_perm (statement : Stmt) :
    statement.flatten.Perm (splitByMethod statement.ownStatements) := by
  induction statement using induction_on_children with
  | step statement ih =>
      by_cases declared : ∃ content, statement = declaration content
      · obtain ⟨content, rfl⟩ := declared
        have own : (declaration content).ownStatements = [declaration content] := by
          rw [ownStatements, visited_eq, entered_declaration, List.flatMap_nil]
        rw [own, flatten_eq, children, methodStatements_eq_flatMap]
        simp only [splitByMethod, List.flatMap_singleton, methods, List.flatMap_assoc]
        exact .refl _
      · have other : ∀ content, statement ≠ declaration content :=
          fun content same => declared ⟨content, same⟩
        have none : statement.methods = [] := by
          cases statement with
          | declaration content => exact absurd rfl (other content)
          | _ => rfl
        have own : statement.ownStatements =
            statement :: statement.children.flatMap ownStatements := by
          rw [ownStatements, visited_eq, entered_of_not_declaration other]
          rfl
        rw [own, flatten_eq, splitByMethod, List.cons_append, List.flatMap_cons, none,
          List.nil_append]
        exact .cons _ (flatMap_flatten_perm ih)

end Stmt

namespace Method

theorem statements_perm (method : Method Expr Stmt) : method.statements.Perm
    (method.ownStatements ++ method.innerMethods.flatMap statements) := by
  rcases method with ⟨_, _, _, _, _, _ | content, _⟩
  · exact .refl _
  · simp only [statements, ownStatements, innerMethods, Option.toList_some, List.flatMap_singleton]
    exact Stmt.flatMap_flatten_perm fun statement _ => statement.flatten_perm

theorem returnsLiteral_eq_any (method : Method Expr Stmt) :
    method.returnsLiteral = method.statements.any returnsLiteralValue := by
  rcases method with ⟨_, _, _, _, _, _ | content, _⟩ <;>
    simp [returnsLiteral, statements, List.any_flatMap]

/-- A method returns a literal by itself, or through a method inside it. -/
theorem returnsLiteral_eq_own_or_inner (method : Method Expr Stmt) :
    method.returnsLiteral = (method.ownStatements.any returnsLiteralValue ||
      method.innerMethods.any returnsLiteral) := by
  have everywhere : returnsLiteral = fun method : Method Expr Stmt =>
      method.statements.any returnsLiteralValue := funext returnsLiteral_eq_any
  rw [returnsLiteral_eq_any, everywhere, method.statements_perm.any_eq, List.any_append,
    List.any_flatMap]

end Method

/-- The writes to state in the expressions of a statement itself. -/
def Stmt.ownWrites (statement : Stmt) : List Finding := statement.ownExpressions.flatMap writesIn

namespace Method

/-- The writes to state in the whole body of a method. -/
def bodyWrites (method : Method Expr Stmt) : List Finding :=
  method.statements.flatMap Stmt.ownWrites

theorem stateWrites_eq (method : Method Expr Stmt) :
    method.stateWrites = if method.isConstructor then [] else method.bodyWrites := by
  rcases method with ⟨_, _, _, _, _, _ | content, _⟩
  · simp [stateWrites, bodyWrites, statements]
  · simp only [stateWrites, bodyWrites, statements, writesInStatement, Stmt.flatten_eq (.block _),
      List.flatMap_cons, Stmt.ownExpressions, List.flatMap_nil, List.nil_append, Stmt.children,
      Option.toList_some, List.append_nil]
    rfl

theorem bodyWrites_perm (method : Method Expr Stmt) : method.bodyWrites.Perm
    (method.ownStatements.flatMap Stmt.ownWrites ++ method.innerMethods.flatMap bodyWrites) := by
  have split := method.statements_perm.flatMap_right Stmt.ownWrites
  rw [List.flatMap_append, List.flatMap_assoc] at split
  exact split

end Method

/-- Whether the check for shared state looks at the methods of a declaration. -/
def Declaration.isService (resetInterfaces : List String)
    (content : Declaration Expr Stmt) : Bool :=
  match content.kind with
  | .classType _ _ interfaces =>
      !interfaces.any fun name => resetInterfaces.contains (lastSegment name)
  | _ => false

/-- Whether the part is a method that the check for shared state looks at. -/
def Ancestor.isChecked (resetInterfaces : List String) (ancestor : Ancestor) : Bool :=
  match ancestor.statement, ancestor.region with
  | .declaration content, .method owner =>
      content.isService resetInterfaces && !owner.isConstructor
  | _, _ => false

/-- The writes of a statement, once for each checked method around it. -/
def Descendant.reports (resetInterfaces : List String) (descendant : Descendant) : List Finding :=
  (List.replicate (descendant.ancestors.countP (Ancestor.isChecked resetInterfaces))
    descendant.statement.ownWrites).flatten

section Reports

variable (resetInterfaces : List String)

theorem stateWrites_eq_ite (content : Declaration Expr Stmt) :
    stateWrites resetInterfaces content =
      if content.isService resetInterfaces then content.methods.flatMap Method.stateWrites
      else [] := by
  rcases content with ⟨span, name, kind, members⟩
  cases kind with
  | classType modifiers parent interfaces =>
      cases reset : interfaces.any fun name => resetInterfaces.contains (lastSegment name) <;>
        simp only [stateWrites, Declaration.isService, reset] <;> rfl
  | _ => rfl

/-- What a statement is reported for is what lies in those of its methods that are checked. -/
theorem onDeclaration_stateWrites (statement : Stmt) :
    onDeclaration (stateWrites resetInterfaces) statement =
      (statement.entered (Ancestor.isChecked resetInterfaces)).flatMap fun inner =>
        inner.flatten.flatMap Stmt.ownWrites := by
  cases statement with
  | declaration content =>
      have each : ∀ owner : Method Expr Stmt,
          ((owner.body.toList.map fun body => (Region.method owner, body.statements)).flatMap
            fun part => (if Ancestor.isChecked resetInterfaces ⟨.declaration content, part.1⟩
              then part.2 else []).flatMap fun inner => inner.flatten.flatMap Stmt.ownWrites) =
          if content.isService resetInterfaces then owner.stateWrites else [] := by
        intro owner
        rw [owner.stateWrites_eq, List.flatMap_map]
        cases service : content.isService resetInterfaces <;>
          cases constructor : owner.isConstructor <;>
          simp [Ancestor.isChecked, service, constructor, Method.bodyWrites, Method.statements,
            List.flatMap_assoc]
      rw [onDeclaration, stateWrites_eq_ite, Stmt.entered, Stmt.regions, List.flatMap_assoc,
        List.flatMap_assoc]
      simp only [each]
      split <;> simp
  | _ => simp [onDeclaration, Stmt.entered, Ancestor.isChecked]

theorem Descendant.reports_within (outermost : Ancestor) (descendant : Descendant) :
    (descendant.within outermost).reports resetInterfaces =
      descendant.reports resetInterfaces ++
        if outermost.isChecked resetInterfaces then descendant.statement.ownWrites else [] := by
  simp only [reports, within, List.countP_append, List.countP_singleton]
  split
  · simp [List.replicate_succ']
  · simp

/-- Seen from one statement further out, there is one report more if the part is checked. -/
theorem reports_of_inner (outermost : Ancestor) (inner : Stmt) :
    ((inner.descendants.map (Descendant.within outermost)).flatMap
      (Descendant.reports resetInterfaces)).Perm
    (inner.descendants.flatMap (Descendant.reports resetInterfaces) ++
      if outermost.isChecked resetInterfaces then inner.flatten.flatMap Stmt.ownWrites
      else []) := by
  rw [List.flatMap_map]
  simp only [Descendant.reports_within]
  refine .trans (List.flatMap_append_perm _ _ _).symm (.append_left _ ?_)
  rw [← inner.map_statement_descendants, List.flatMap_map]
  split <;> simp

theorem reports_of_part (outermost : Ancestor) (statements : List Stmt) :
    ((statements.flatMap fun inner => inner.descendants.map
      (Descendant.within outermost)).flatMap (Descendant.reports resetInterfaces)).Perm
    ((statements.flatMap fun inner =>
      inner.descendants.flatMap (Descendant.reports resetInterfaces)) ++
      (if outermost.isChecked resetInterfaces then statements else []).flatMap fun inner =>
        inner.flatten.flatMap Stmt.ownWrites) := by
  rw [List.flatMap_assoc]
  refine .trans (List.Perm.flatMap_left _ fun inner _ =>
    reports_of_inner resetInterfaces outermost inner) ?_
  refine .trans (List.flatMap_append_perm _ _ _).symm (.append_left _ ?_)
  split <;> simp

/-- Looking at every method of a statement reports each write inside it once for each checked method
around the write. -/
theorem flatten_stateWrites_perm (statement : Stmt) :
    (statement.flatten.flatMap (onDeclaration (stateWrites resetInterfaces))).Perm
      (statement.descendants.flatMap (Descendant.reports resetInterfaces)) := by
  induction statement using Stmt.induction_on_children with
  | step statement ih =>
      have below : (statement.regions.flatMap fun part => part.2.flatMap fun inner =>
          inner.descendants.flatMap (Descendant.reports resetInterfaces)).Perm
          (statement.children.flatMap fun inner =>
            inner.flatten.flatMap (onDeclaration (stateWrites resetInterfaces))) := by
        rw [← List.flatMap_assoc, Stmt.flatMap_regions]
        exact List.Perm.flatMap_left _ fun inner member => (ih inner member).symm
      have top : (⟨[], statement⟩ : Descendant).reports resetInterfaces = [] := rfl
      rw [Stmt.flatten_eq, List.flatMap_cons, Stmt.descendants_eq, List.flatMap_cons, top,
        List.nil_append, onDeclaration_stateWrites, List.flatMap_assoc, List.flatMap_assoc,
        Stmt.entered, List.flatMap_assoc]
      refine .trans ?_ (List.Perm.flatMap_left _ fun part _ =>
        reports_of_part resetInterfaces ⟨statement, part.1⟩ part.2).symm
      refine .trans ?_ (List.flatMap_append_perm _ _ _)
      exact List.perm_append_comm.trans (below.symm.append_right _)

/-- With one method around it at most, a write is reported at most once. -/
theorem Descendant.reports_eq_ite {descendant : Descendant}
    (single : descendant.ancestors.countP Ancestor.isMethod ≤ 1) :
    descendant.reports resetInterfaces =
      if descendant.ancestors.any (Ancestor.isChecked resetInterfaces)
      then descendant.statement.ownWrites else [] := by
  have fewer : descendant.ancestors.countP (Ancestor.isChecked resetInterfaces) ≤
      descendant.ancestors.countP Ancestor.isMethod := by
    refine List.countP_mono_left fun ancestor _ checked => ?_
    rcases ancestor with ⟨statement, region⟩
    cases region with
    | method owner => rfl
    | _ => cases statement <;> cases checked
  cases checked : descendant.ancestors.any (Ancestor.isChecked resetInterfaces) with
  | false =>
      have none : descendant.ancestors.countP (Ancestor.isChecked resetInterfaces) = 0 :=
        List.countP_eq_zero.mpr (List.any_eq_false.mp checked)
      simp [reports, none]
  | true =>
      have some : 0 < descendant.ancestors.countP (Ancestor.isChecked resetInterfaces) :=
        List.countP_pos_iff.mpr (List.any_eq_true.mp checked)
      have one : descendant.ancestors.countP (Ancestor.isChecked resetInterfaces) = 1 := by omega
      simp [reports, one]

end Reports

/-- What a method returns and writes is what its own statements return and write, together with what
the methods inside it do, although these have their own results as well. So the check for shared
state reports a write once for each checked method around it; it reports nothing twice as long as no
write has more than one method around it. -/
theorem methods_answer_for_inner_methods (settings : Settings) (file : SourceFile) :
    let resetInterfaces := settings.texts "reset_interfaces"
    let descendants := file.statements.flatMap Stmt.descendants
    let found := Check.sharedState.findings settings file
    (∀ method : Method Expr Stmt, method.returnsLiteral =
      (method.ownStatements.any returnsLiteralValue ||
        method.innerMethods.any Method.returnsLiteral)) ∧
    (∀ method : Method Expr Stmt, method.isConstructor = false → method.stateWrites.Perm
      (method.ownStatements.flatMap Stmt.ownWrites ++
        method.innerMethods.flatMap Method.bodyWrites)) ∧
    found.Perm (descendants.flatMap (Descendant.reports resetInterfaces)) ∧
    ((∀ descendant ∈ descendants, descendant.ancestors.countP Ancestor.isMethod ≤ 1) →
      found.Perm (descendants.flatMap fun descendant =>
        if descendant.ancestors.any (Ancestor.isChecked resetInterfaces)
        then descendant.statement.ownWrites else [])) := by
  intro resetInterfaces descendants found
  have reported : found.Perm (descendants.flatMap (Descendant.reports resetInterfaces)) := by
    simp only [found, descendants, List.flatMap_assoc]
    exact List.Perm.flatMap_left _ fun statement _ =>
      flatten_stateWrites_perm resetInterfaces statement
  refine ⟨Method.returnsLiteral_eq_own_or_inner, fun method usual => ?_, reported, fun single => ?_⟩
  · rw [method.stateWrites_eq, usual]
    exact method.bodyWrites_perm
  · rwa [List.flatMap_congr fun descendant member =>
      Descendant.reports_eq_ite resetInterfaces (single descendant member)] at reported

/-- A write in a method, and the same write in a method of a class in a method. -/
theorem nested_write_reported_twice :
    let write : Stmt := .expression {} (.assignment {} (.property {} (.var {} "$this") "x") .assign
      (.literal {} .int "1") false)
    let method (inner : Stmt) : Method Expr Stmt :=
      ⟨{}, ⟨{}, "f"⟩, [], [], none, some ⟨{}, [inner]⟩, false⟩
    let service (inner : Stmt) : Stmt := .declaration ⟨{}, ⟨{}, "A"⟩, .classType [] none [],
      [.method (method inner)]⟩
    (Check.sharedState.findings [] ⟨"", [], [service write]⟩).length = 1 ∧
      (Check.sharedState.findings [] ⟨"", [], [service (service write)]⟩).length = 2 := by
  intro write method service
  have written : write.ownWrites.length = 1 := by
    simp [write, Stmt.ownWrites, Stmt.ownExpressions, writesIn, Expr.walk_eq, Expr.subexpressions,
      Expr.mutatedTarget, writtenState, Expr.withoutElements, Expr.isThis]
  have silent : ∀ inner, (service inner).ownWrites = [] := fun _ => rfl
  have leaf : write.descendants = [⟨[], write⟩] := by
    rw [Stmt.descendants_eq]
    rfl
  have around : ∀ inner, (service inner).descendants = ⟨[], service inner⟩ ::
      inner.descendants.map (Descendant.within ⟨service inner, .method (method inner)⟩) := by
    intro inner
    rw [Stmt.descendants_eq]
    simp [service, Stmt.regions, Declaration.methods, method]
  have checked : ∀ inner resetInterfaces, Ancestor.isChecked resetInterfaces
      ⟨service inner, .method (method inner)⟩ = true := fun _ _ => by
    simp [Ancestor.isChecked, service, Declaration.isService, Method.isConstructor, method]
    decide
  obtain ⟨_, _, _, once⟩ := methods_answer_for_inner_methods [] ⟨"", [], [service write]⟩
  obtain ⟨_, _, twice, _⟩ := methods_answer_for_inner_methods [] ⟨"", [], [service (service write)]⟩
  refine ⟨(once ?_).length_eq.trans ?_, twice.length_eq.trans ?_⟩
  · simp [around, leaf, Descendant.within, Ancestor.isMethod]
  · simp [around, leaf, Descendant.within, checked, written]
  · simp [around, leaf, Descendant.within, checked, written, silent, Descendant.reports]

end PhpAudit
