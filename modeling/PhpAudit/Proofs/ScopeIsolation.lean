import PhpAudit.Audit
import PhpAudit.Proofs.SealedWalks

/-!
What is written inside a scope of its own does not count: every check reports the same about a
file and about the sealed file, so two files that differ only inside such scopes have the same
violations.
-/

namespace PhpAudit

/-! Methods and declarations -/

@[simp] theorem sealedMethod_span (method : Method Expr Stmt) :
    (sealedMethod method).span = method.span := by
  cases method
  rfl

@[simp] theorem sealedMethod_name (method : Method Expr Stmt) :
    (sealedMethod method).name = method.name := by
  cases method
  rfl

@[simp] theorem sealedMethod_modifiers (method : Method Expr Stmt) :
    (sealedMethod method).modifiers = method.modifiers := by
  cases method
  rfl

@[simp] theorem sealedMethod_returnHint (method : Method Expr Stmt) :
    (sealedMethod method).returnHint = method.returnHint := by
  cases method
  rfl

@[simp] theorem sealedMethod_parameters (method : Method Expr Stmt) :
    (sealedMethod method).parameters = method.parameters.map Parameter.sealed := by
  cases method
  rfl

@[simp] theorem sealedDeclaration_name (declaration : Declaration Expr Stmt) :
    (sealedDeclaration declaration).name = declaration.name := by
  cases declaration
  rfl

@[simp] theorem sealedDeclaration_kind (declaration : Declaration Expr Stmt) :
    (sealedDeclaration declaration).kind = declaration.kind := by
  cases declaration
  rfl

namespace Declaration

@[simp] theorem sealed_methods (declaration : Declaration Expr Stmt) :
    (sealedDeclaration declaration).methods = declaration.methods.map sealedMethod := by
  simp only [methods, sealedDeclaration_members, List.filterMap_map, List.map_filterMap]
  congr 1
  funext member
  cases member <;> rfl

theorem sealed_ownTypes (declaration : Declaration Expr Stmt) :
    (sealedDeclaration declaration).ownTypes = declaration.ownTypes := by
  simp only [ownTypes, sealed_methods, List.foldl_map, sealedMethod_returnHint, sealedMethod_name]

theorem sealed_declaresMethod (declaration : Declaration Expr Stmt) (method : String) :
    (sealedDeclaration declaration).declaresMethod method = declaration.declaresMethod method := by
  simp [declaresMethod, Function.comp_def]

theorem sealed_traitNames (declaration : Declaration Expr Stmt) :
    (sealedDeclaration declaration).traitNames = declaration.traitNames := by
  simp only [traitNames, sealedDeclaration_members, List.flatMap_map]
  congr 1
  funext member
  cases member <;> rfl

end Declaration

theorem declarationsOf_eq_flatMap (statements : List Stmt) :
    declarationsOf statements = statements.flatMap Stmt.declarations := by
  induction statements with
  | nil => rfl
  | cons statement rest ih => rw [declarationsOf, ih, List.flatMap_cons]

theorem Stmt.sealed_declarations (statement : Stmt) :
    statement.sealed.declarations = statement.declarations.map sealedDeclaration := by
  induction statement using Stmt.induction_on_children with
  | step statement ih =>
      cases statement with
      | package span name statements braced =>
          simp only [Stmt.sealed, Stmt.declarations, sealedStmts_eq_map,
            declarationsOf_eq_flatMap, List.flatMap_map, List.map_flatMap]
          exact List.flatMap_congr ih
      | _ => rfl

namespace TypeRegistry

theorem ofStatements_sealed (statements : List Stmt) :
    ofStatements (statements.map Stmt.sealed) = ofStatements statements := by
  have declared : declarationsOf (statements.map Stmt.sealed) =
      (declarationsOf statements).map sealedDeclaration := by
    simp only [declarationsOf_eq_flatMap, List.flatMap_map, List.map_flatMap,
      Stmt.sealed_declarations]
  simp only [ofStatements, declared, List.foldl_map, sealedDeclaration_name,
    Declaration.sealed_ownTypes]

theorem methodTypes_sealed (registry : TypeRegistry) (declaration : Declaration Expr Stmt) :
    registry.methodTypes (sealedDeclaration declaration) = registry.methodTypes declaration := by
  simp only [methodTypes, mergeTrait, Declaration.sealed_traitNames, Declaration.sealed_ownTypes,
    Declaration.sealed_declaresMethod, sealedDeclaration_name]

end TypeRegistry

/-! Files -/

namespace SourceFile

def sealed (file : SourceFile) : SourceFile :=
  { file with statements := file.statements.map Stmt.sealed }

@[simp] theorem sealed_types (file : SourceFile) : file.sealed.types = file.types :=
  TypeRegistry.ofStatements_sealed file.statements

theorem sealed_packageName (file : SourceFile) : file.sealed.packageName = file.packageName := by
  simp only [packageName, sealed, List.findSome?_map]
  congr 1
  funext statement
  cases statement with
  | package span name statements braced => cases name <;> rfl
  | _ => rfl

theorem declaredName_sealed (statement : Stmt) :
    declaredName statement.sealed = declaredName statement := by
  cases statement with
  | declaration content => simp [Stmt.sealed, declaredName]
  | _ => rfl

theorem sealed_typeName (file : SourceFile) : file.sealed.typeName = file.typeName := by
  simp only [typeName, sealed, List.findSome?_map]
  congr 1
  funext statement
  have name := declaredName_sealed statement
  cases statement with
  | package span label statements braced =>
      simp only [Function.comp_apply, Stmt.sealed, sealedStmts_eq_map, List.findSome?_map]
      congr 1
      funext inner
      exact declaredName_sealed inner
  | _ => exact name

@[simp] theorem sealed_qualifiedName (file : SourceFile) :
    file.sealed.qualifiedName = file.qualifiedName := by
  simp only [qualifiedName, sealed_typeName, sealed_packageName]

end SourceFile

/-! Checks -/

theorem misplacedTag_sealed (file : SourceFile) : misplacedTag file.sealed = misplacedTag file := by
  have tags : file.sealed.statements.findSome? openingTagSpan =
      file.statements.findSome? openingTagSpan := by
    simp only [SourceFile.sealed, List.findSome?_map]
    congr 1
    funext statement
    cases statement <;> rfl
  have script : file.sealed.isScript = file.isScript := rfl
  rw [misplacedTag, misplacedTag, tags, script]

theorem emptyCatches_sealed (statement : Stmt) :
    emptyCatches statement.sealed = emptyCatches statement := by
  cases statement with
  | tryCatch span content catches finallyBlock =>
      simp [Stmt.sealed, emptyCatches, List.filter_map, Function.comp_def]
  | _ => rfl

theorem onDeclaration_sealed {check : Declaration Expr Stmt → List Finding}
    (same : ∀ declaration, check (sealedDeclaration declaration) = check declaration)
    (statement : Stmt) :
    onDeclaration check statement.sealed = onDeclaration check statement := by
  cases statement with
  | declaration content => exact same content
  | _ => rfl

theorem methodsWithoutModifier_sealed (declaration : Declaration Expr Stmt) :
    methodsWithoutModifier (sealedDeclaration declaration) =
      methodsWithoutModifier declaration := by
  simp [methodsWithoutModifier, List.filter_map, Function.comp_def]

theorem firstEntries_sealed (seen : List String) (entries : List (VariableEntry Expr)) :
    firstEntries seen (entries.map VariableEntry.sealed) =
      (firstEntries seen entries).map VariableEntry.sealed := by
  induction entries generalizing seen with
  | nil => rfl
  | cons entry rest ih =>
      by_cases known : entry.name ∈ seen
      · simp [firstEntries, VariableEntry.sealed, known, ih]
      · simp [firstEntries, VariableEntry.sealed, known, ih]

theorem propertiesWithoutModifier_sealed (declaration : Declaration Expr Stmt) :
    propertiesWithoutModifier (sealedDeclaration declaration) =
      propertiesWithoutModifier declaration := by
  have entries : entriesWithoutModifier (sealedDeclaration declaration) =
      (entriesWithoutModifier declaration).map VariableEntry.sealed := by
    simp only [entriesWithoutModifier, sealedDeclaration_members, List.flatMap_map,
      List.map_flatMap]
    congr 1
    funext member
    rcases member with _ | ⟨_, _ | _, _, _, _⟩ | _ | _ | _ <;> rfl
  simp [propertiesWithoutModifier, entries, firstEntries_sealed, VariableEntry.sealed,
    Function.comp_def]

theorem constantsInLowerCase_sealed (statement : Stmt) :
    constantsInLowerCase statement.sealed = constantsInLowerCase statement := by
  have lowered : ∀ entries : List (ConstantEntry Expr),
      loweredConstants (entries.map ConstantEntry.sealed) = loweredConstants entries := by
    intro entries
    simp [loweredConstants, List.filter_map, ConstantEntry.sealed, Function.comp_def]
  cases statement with
  | constants span entries => exact lowered entries
  | declaration content =>
      have entries : classConstants (sealedDeclaration content) =
          (classConstants content).map ConstantEntry.sealed := by
        simp only [classConstants, sealedDeclaration_members, List.flatMap_map, List.map_flatMap]
        congr 1
        funext member
        cases member <;> rfl
      simp only [Stmt.sealed, constantsInLowerCase, entries, lowered]
  | _ => rfl

theorem uncapitalizedName_sealed (declaration : Declaration Expr Stmt) :
    uncapitalizedName (sealedDeclaration declaration) = uncapitalizedName declaration := by
  simp only [uncapitalizedName, sealedDeclaration_name, sealedDeclaration_kind]

@[simp] theorem Method.sealed_isConstructor (method : Method Expr Stmt) :
    (sealedMethod method).isConstructor = method.isConstructor := by
  simp only [Method.isConstructor, sealedMethod_name]

theorem tooManyParameters_sealed (maximum : Int) (checkConstructor : Bool)
    (declaration : Declaration Expr Stmt) :
    tooManyParameters maximum checkConstructor (sealedDeclaration declaration) =
      tooManyParameters maximum checkConstructor declaration := by
  simp [tooManyParameters, List.filter_map, Function.comp_def]

theorem Method.sealed_returnsLiteral (method : Method Expr Stmt) :
    (sealedMethod method).returnsLiteral = method.returnsLiteral := by
  have values : ∀ statement : Stmt,
      returnsLiteralValue statement.sealed = returnsLiteralValue statement := by
    intro statement
    cases statement with
    | returnValue span value =>
        cases value <;> simp [Stmt.sealed, returnsLiteralValue, Expr.sealed_isLiteral]
    | _ => rfl
  cases content : method.body with
  | none => simp [Method.returnsLiteral, content]
  | some body =>
      simp [Method.returnsLiteral, content, Function.comp_def, Stmt.sealed_flatten, values]

theorem missingReturnTypes_sealed (declaration : Declaration Expr Stmt) :
    missingReturnTypes (sealedDeclaration declaration) = missingReturnTypes declaration := by
  simp [missingReturnTypes, List.filter_map, Function.comp_def, Method.sealed_returnsLiteral]

theorem methodsAbove_sealed (maximum : Int) {measure : List Stmt → Int}
    (same : ∀ statements, measure (statements.map Stmt.sealed) = measure statements)
    (advice : Int → String) (declaration : Declaration Expr Stmt) :
    methodsAbove maximum measure advice (sealedDeclaration declaration) =
      methodsAbove maximum measure advice declaration := by
  simp only [methodsAbove, Declaration.sealed_methods, List.filterMap_map]
  congr 1
  funext method
  cases content : method.body <;> simp [content, same]

theorem writtenState_sealed (target : Expr) : writtenState target.sealed = writtenState target := by
  simp only [writtenState, Expr.sealed_withoutElements]
  cases target.withoutElements <;> simp [Expr.sealed]

theorem writesIn_sealed (expression : Expr) : writesIn expression.sealed = writesIn expression := by
  simp only [writesIn, Expr.sealed_walk, List.filterMap_map]
  congr 1
  funext part
  cases target : part.mutatedTarget <;>
    simp [Expr.sealed_mutatedTarget, target, writtenState_sealed]

theorem writesInStatement_sealed (statement : Stmt) :
    writesInStatement statement.sealed = writesInStatement statement := by
  simp [writesInStatement, Stmt.sealed_flatten, Stmt.sealed_ownExpressions, List.flatMap_map,
    writesIn_sealed]

theorem Method.sealed_stateWrites (method : Method Expr Stmt) :
    (sealedMethod method).stateWrites = method.stateWrites := by
  cases content : method.body with
  | none => simp [Method.stateWrites, content]
  | some body =>
      have writes := writesInStatement_sealed (.block body)
      simp only [Stmt.sealed] at writes
      simp [Method.stateWrites, content, writes]

theorem stateWrites_sealed (resetInterfaces : List String) (declaration : Declaration Expr Stmt) :
    stateWrites resetInterfaces (sealedDeclaration declaration) =
      stateWrites resetInterfaces declaration := by
  simp only [stateWrites, sealedDeclaration_kind, Declaration.sealed_methods, List.flatMap_map,
    Method.sealed_stateWrites]

theorem Declaration.foreignCalls_sealed (registry : TypeRegistry)
    (declaration : Declaration Expr Stmt) :
    (sealedDeclaration declaration).foreignCalls registry = declaration.foreignCalls registry := by
  simp only [Declaration.foreignCalls, Declaration.sealed_methods, List.flatMap_map,
    TypeRegistry.methodTypes_sealed, sealedDeclaration_name]
  congr 1
  funext method
  cases content : method.body <;> simp [content, Tracker.walkAll_sealed]

theorem foreignCallsOf_eq_flatMap (registry : TypeRegistry) (statements : List Stmt) :
    foreignCallsOf registry statements = statements.flatMap (Stmt.foreignCalls registry) := by
  induction statements with
  | nil => rfl
  | cons statement rest ih => rw [foreignCallsOf, ih, List.flatMap_cons]

theorem Stmt.foreignCalls_sealed (registry : TypeRegistry) (statement : Stmt) :
    statement.sealed.foreignCalls registry = statement.foreignCalls registry := by
  induction statement using Stmt.induction_on_children with
  | step statement ih =>
      have walked := Tracker.walk_sealed {} {} statement
      cases statement with
      | package span name statements braced =>
          simp only [Stmt.sealed, Stmt.foreignCalls, sealedStmts_eq_map,
            foreignCallsOf_eq_flatMap, List.flatMap_map]
          exact List.flatMap_congr ih
      | declaration content =>
          have same := content.foreignCalls_sealed registry
          rcases content with ⟨span, name, kind, members⟩
          cases kind with
          | interfaceType parents => rfl
          | _ => exact same
      | function span name parameters returnHint body byRef => rfl
      | _ => exact congrArg Tracker.found walked

namespace Check

theorem statementFindings_sealed (check : Check) (settings : Settings) (statement : Stmt) :
    check.statementFindings settings statement.sealed =
      check.statementFindings settings statement := by
  cases check with
  | openingTag | foreignCalls => rfl
  | emptyCatch => exact emptyCatches_sealed statement
  | upperCaseConstants => exact constantsInLowerCase_sealed statement
  | methodModifiers => exact onDeclaration_sealed methodsWithoutModifier_sealed statement
  | capitalizedNames => exact onDeclaration_sealed uncapitalizedName_sealed statement
  | propertyModifiers => exact onDeclaration_sealed propertiesWithoutModifier_sealed statement
  | parameterCount => exact onDeclaration_sealed (tooManyParameters_sealed _ _) statement
  | returnTypes => exact onDeclaration_sealed missingReturnTypes_sealed statement
  | branching =>
      exact onDeclaration_sealed (methodsAbove_sealed _ branchScore_sealed _) statement
  | paths =>
      refine onDeclaration_sealed (methodsAbove_sealed _ ?_ _) statement
      intro statements
      rw [pathCount_sealed]
  | sharedState => exact onDeclaration_sealed (stateWrites_sealed _) statement

theorem findings_sealed (check : Check) (settings : Settings) (file : SourceFile) :
    check.findings settings file.sealed = check.findings settings file := by
  have perStatement : (file.sealed.statements.flatMap fun statement =>
      statement.flatten.flatMap (check.statementFindings settings)) =
        file.statements.flatMap fun statement =>
          statement.flatten.flatMap (check.statementFindings settings) := by
    simp only [SourceFile.sealed, List.flatMap_map, Stmt.sealed_flatten,
      statementFindings_sealed]
  cases check with
  | openingTag => exact misplacedTag_sealed file
  | foreignCalls =>
      have calls : ∀ statement : Stmt, callsToOthers file.types statement.sealed =
          callsToOthers file.types statement := by
        intro statement
        rw [callsToOthers, callsToOthers, Stmt.foreignCalls_sealed]
      simp only [findings, SourceFile.sealed_types]
      simp only [SourceFile.sealed, List.flatMap_map, calls]
  | _ => exact perStatement

theorem applies_sealed (check : Check) (settings : Settings) (file : SourceFile) :
    check.applies settings file.sealed = check.applies settings file := by
  simp only [applies, SourceFile.sealed_qualifiedName]

end Check

theorem Rule.violations_sealed (rule : Rule) (file : SourceFile) :
    rule.violations file.sealed = rule.violations file := by
  have shown : file.sealed.violation rule.code = file.violation rule.code := rfl
  simp only [Rule.violations, Check.applies_sealed, Check.findings_sealed, shown]

theorem Audit.violations_sealed (audit : Audit) (file : SourceFile) :
    audit.violations file.sealed = audit.violations file := by
  simp only [Audit.violations, Rule.violations_sealed]

/-- Two files with the same lines and the same statements outside of closures, arrow functions,
anonymous classes and named functions have the same violations under every configuration. -/
theorem Audit.violations_eq_of_same_outside (configuration : Configuration) (path : String)
    (lines : List String) (first second : List Stmt)
    (same : first.map Stmt.sealed = second.map Stmt.sealed) :
    (Audit.prepare configuration).1.violations ⟨path, lines, first⟩ =
      (Audit.prepare configuration).1.violations ⟨path, lines, second⟩ := by
  have sealedFile : SourceFile.sealed ⟨path, lines, first⟩ =
      SourceFile.sealed ⟨path, lines, second⟩ := by
    simp only [SourceFile.sealed, same]
  rw [← Audit.violations_sealed, sealedFile, Audit.violations_sealed]

theorem Audit.violations_without_closure_body :
    [Stmt.expression {} (.closure {} [] [] none
        ⟨{}, [.expression {} (.methodCall {} (.var {} "$other") "run" [])]⟩ true false)].map
          Stmt.sealed =
        [Stmt.expression {} (.closure {} [] [] none ⟨{}, []⟩ false false)].map Stmt.sealed ∧
      (Audit.prepare {}).1.violations ⟨"a.php", ["<?php"],
          [.expression {} (.closure {} [] [] none
            ⟨{}, [.expression {} (.methodCall {} (.var {} "$other") "run" [])]⟩ true false)]⟩ =
        (Audit.prepare {}).1.violations ⟨"a.php", ["<?php"],
          [.expression {} (.closure {} [] [] none ⟨{}, []⟩ false false)]⟩ :=
  ⟨rfl, Audit.violations_eq_of_same_outside {} "a.php" ["<?php"] _ _ rfl⟩

end PhpAudit
