import Mathlib.Data.List.Basic
import PhpAudit.Proofs.Traversal

/-!
Sealed trees. Closures, arrow functions, anonymous classes and named functions are scopes of their
own; sealing a tree empties them and leaves everything else in its place. Two trees that are the
same once sealed differ only inside such scopes. Sealing goes along with every way of looking
through a tree.
-/

namespace PhpAudit

mutual

/-- An expression without what is written inside its scopes. -/
def Expr.sealed : Expr → Expr
  | .closure span _ _ _ _ _ _ => .closure span [] [] none ⟨span, []⟩ false false
  | .arrowFunction span _ _ _ _ _ => .arrowFunction span [] none (.placeholder span) false false
  | .anonymousClass span _ _ _ => .anonymousClass span none [] []
  | .var span name => .var span name
  | .name span text => .name span text
  | .literal span kind raw => .literal span kind raw
  | .placeholder span => .placeholder span
  | .indirect span inner => .indirect span inner.sealed
  | .array span items form => .array span (sealedItems items) form
  | .new span target arguments => .new span target.sealed (sealedArguments arguments)
  | .call span target arguments => .call span target.sealed (sealedArguments arguments)
  | .methodCall span object method arguments =>
      .methodCall span object.sealed method (sealedArguments arguments)
  | .nullsafeMethodCall span object method arguments =>
      .nullsafeMethodCall span object.sealed method (sealedArguments arguments)
  | .staticMethodCall span target method arguments =>
      .staticMethodCall span target.sealed method (sealedArguments arguments)
  | .property span object selector => .property span object.sealed selector
  | .nullsafeProperty span object selector => .nullsafeProperty span object.sealed selector
  | .staticProperty span target selector => .staticProperty span target.sealed selector
  | .classConstant span target selector => .classConstant span target.sealed selector
  | .element span holder index => .element span holder.sealed (sealedOption index)
  | .assignment span target operator value byRef =>
      .assignment span target.sealed operator value.sealed byRef
  | .binary span left operator right => .binary span left.sealed operator right.sealed
  | .unary span operator operand trailing => .unary span operator operand.sealed trailing
  | .ternary span condition whenTrue whenFalse =>
      .ternary span condition.sealed (sealedOption whenTrue) whenFalse.sealed
  | .parenthesized span inner => .parenthesized span inner.sealed
  | .yield span key value delegate =>
      .yield span (sealedOption key) (sealedOption value) delegate
  | .matching span subject arms => .matching span subject.sealed (sealedArms arms)

def sealedOption : Option Expr → Option Expr
  | none => none
  | some expression => some expression.sealed

def sealedAll : List Expr → List Expr
  | [] => []
  | expression :: rest => expression.sealed :: sealedAll rest

def sealedItems : List (ArrayItem Expr) → List (ArrayItem Expr)
  | [] => []
  | item :: rest => sealedItem item :: sealedItems rest

def sealedItem : ArrayItem Expr → ArrayItem Expr
  | ⟨span, key, value, byRef, unpack⟩ => ⟨span, sealedOption key, value.sealed, byRef, unpack⟩

def sealedArguments : List (Argument Expr) → List (Argument Expr)
  | [] => []
  | argument :: rest => sealedArgument argument :: sealedArguments rest

def sealedArgument : Argument Expr → Argument Expr
  | ⟨span, value, name, unpack⟩ => ⟨span, value.sealed, name, unpack⟩

def sealedArms : List (MatchArm Expr) → List (MatchArm Expr)
  | [] => []
  | arm :: rest => sealedArm arm :: sealedArms rest

def sealedArm : MatchArm Expr → MatchArm Expr
  | ⟨span, conditions, result⟩ => ⟨span, sealedAll conditions, result.sealed⟩

end

attribute [local simp] Expr.sealed

@[simp] theorem sealedOption_eq_map (expression : Option Expr) :
    sealedOption expression = expression.map Expr.sealed := by
  cases expression <;> rfl

@[simp] theorem sealedAll_eq_map (expressions : List Expr) :
    sealedAll expressions = expressions.map Expr.sealed := by
  induction expressions with
  | nil => rfl
  | cons expression rest ih => rw [sealedAll, ih, List.map_cons]

@[simp] theorem sealedItems_eq_map (items : List (ArrayItem Expr)) :
    sealedItems items = items.map sealedItem := by
  induction items with
  | nil => rfl
  | cons item rest ih => rw [sealedItems, ih, List.map_cons]

@[simp] theorem sealedArguments_eq_map (arguments : List (Argument Expr)) :
    sealedArguments arguments = arguments.map sealedArgument := by
  induction arguments with
  | nil => rfl
  | cons argument rest ih => rw [sealedArguments, ih, List.map_cons]

@[simp] theorem sealedArms_eq_map (arms : List (MatchArm Expr)) :
    sealedArms arms = arms.map sealedArm := by
  induction arms with
  | nil => rfl
  | cons arm rest ih => rw [sealedArms, ih, List.map_cons]

@[simp] theorem sealedItem_key (item : ArrayItem Expr) :
    (sealedItem item).key = item.key.map Expr.sealed := by
  cases item
  exact sealedOption_eq_map _

@[simp] theorem sealedItem_value (item : ArrayItem Expr) :
    (sealedItem item).value = item.value.sealed := by
  cases item
  rfl

@[simp] theorem sealedArgument_value (argument : Argument Expr) :
    (sealedArgument argument).value = argument.value.sealed := by
  cases argument
  rfl

@[simp] theorem sealedArm_conditions (arm : MatchArm Expr) :
    (sealedArm arm).conditions = arm.conditions.map Expr.sealed := by
  cases arm
  exact sealedAll_eq_map _

@[simp] theorem sealedArm_result (arm : MatchArm Expr) :
    (sealedArm arm).result = arm.result.sealed := by
  cases arm
  rfl

namespace Expr

/-- The direct parts of a sealed expression are the sealed direct parts. -/
theorem sealed_subexpressions (expression : Expr) :
    expression.sealed.subexpressions = expression.subexpressions.map Expr.sealed := by
  cases expression with
  | array span items form =>
      simp [subexpressions, List.flatMap_map, List.map_flatMap, Option.toList_map]
  | matching span subject arms =>
      simp [subexpressions, List.flatMap_map, List.map_flatMap]
  | _ => simp [subexpressions, Option.toList_map]

theorem sealed_walk (expression : Expr) :
    expression.sealed.walk = expression.walk.map Expr.sealed := by
  induction expression using induction_on_parts with
  | step expression ih =>
      rw [walk_eq, walk_eq, sealed_subexpressions, List.flatMap_map, List.map_cons,
        List.map_flatMap, List.flatMap_congr ih]

theorem sealed_mutatedTarget (expression : Expr) :
    expression.sealed.mutatedTarget = expression.mutatedTarget.map Expr.sealed := by
  cases expression with
  | unary span operator operand trailing => cases operator <;> rfl
  | _ => rfl

theorem sealed_withoutElements (expression : Expr) :
    expression.sealed.withoutElements = expression.withoutElements.sealed := by
  induction expression using induction_on_parts with
  | step expression ih =>
      cases expression with
      | element span holder index =>
          have inner := ih holder (by simp [subexpressions])
          simpa only [Expr.sealed, withoutElements] using inner
      | _ => rfl

@[simp] theorem sealed_isThis (expression : Expr) :
    expression.sealed.isThis = expression.isThis := by
  cases expression <;> rfl

@[simp] theorem sealed_isNumber (expression : Expr) :
    expression.sealed.isNumber = expression.isNumber := by
  cases expression <;> rfl

theorem sealed_areLiterals {items : List (ArrayItem Expr)}
    (same : ∀ item ∈ items, isLiteralItem (sealedItem item) = isLiteralItem item) :
    areLiterals (items.map sealedItem) = areLiterals items := by
  induction items with
  | nil => rfl
  | cons item rest ih =>
      rw [List.map_cons, areLiterals, areLiterals, same item (List.mem_cons_self ..),
        ih fun other member => same other (List.mem_cons_of_mem item member)]

theorem sealed_isLiteral (expression : Expr) :
    expression.sealed.isLiteral = expression.isLiteral := by
  induction expression using induction_on_parts with
  | step expression ih =>
      cases expression with
      | array span items form =>
          simp only [Expr.sealed, isLiteral, sealedItems_eq_map]
          rw [sealed_areLiterals]
          intro item member
          have parts : ∀ inner ∈ item.key.toList ++ [item.value],
              inner.sealed.isLiteral = inner.isLiteral := fun inner present =>
            ih inner (List.mem_flatMap.mpr ⟨item, member, present⟩)
          rcases item with ⟨place, key, value, byRef, unpack⟩
          cases key <;> simp_all [sealedItem, isLiteralItem, isLiteralKey]
      | unary span operator operand trailing =>
          cases operator <;> simp [isLiteral]
      | _ => rfl

end Expr

/-! Statements -/

def Parameter.sealed (parameter : Parameter Expr) : Parameter Expr :=
  { parameter with initial := parameter.initial.map Expr.sealed }

def VariableEntry.sealed (entry : VariableEntry Expr) : VariableEntry Expr :=
  { entry with initial := entry.initial.map Expr.sealed }

def ConstantEntry.sealed (entry : ConstantEntry Expr) : ConstantEntry Expr :=
  { entry with value := entry.value.sealed }

mutual

/-- A statement without what is written inside its scopes. -/
def Stmt.sealed : Stmt → Stmt
  | .function span name _ _ _ byRef => .function span name [] none ⟨span, []⟩ byRef
  | .openingTag span tag => .openingTag span tag
  | .closingTag span => .closingTag span
  | .inlineHtml span text => .inlineHtml span text
  | .noop span => .noop span
  | .expression span value => .expression span value.sealed
  | .echo span values => .echo span (values.map Expr.sealed)
  | .returnValue span value => .returnValue span (value.map Expr.sealed)
  | .block content => .block (sealedBlock content)
  | .ifElse span condition body elseIfs otherwise =>
      .ifElse span condition.sealed (sealedBody body) (sealedElseIfs elseIfs)
        (sealedElse otherwise)
  | .whileLoop span condition body => .whileLoop span condition.sealed (sealedBody body)
  | .doWhile span body condition => .doWhile span body.sealed condition.sealed
  | .forLoop span initializers conditions steps body =>
      .forLoop span (initializers.map Expr.sealed) (conditions.map Expr.sealed)
        (steps.map Expr.sealed) (sealedBody body)
  | .foreachLoop span subject key value body byRef =>
      .foreachLoop span subject.sealed (key.map Expr.sealed) value (sealedBody body) byRef.sealed
  | .switch span subject cases => .switch span subject.sealed (sealedCases cases)
  | .tryCatch span content catches finallyBlock =>
      .tryCatch span (sealedBlock content) (sealedCatches catches)
        (sealedOptionBlock finallyBlock)
  | .breakOut span level => .breakOut span (level.map Expr.sealed)
  | .continueOn span level => .continueOn span (level.map Expr.sealed)
  | .globals span names => .globals span names
  | .statics span entries => .statics span (entries.map VariableEntry.sealed)
  | .imports span kind items => .imports span kind items
  | .constants span entries => .constants span (entries.map ConstantEntry.sealed)
  | .declare span directives body =>
      .declare span (directives.map ConstantEntry.sealed) (sealedOptionBlock body)
  | .package span name statements braced => .package span name (sealedStmts statements) braced
  | .declaration content => .declaration (sealedDeclaration content)

def sealedStmts : List Stmt → List Stmt
  | [] => []
  | statement :: rest => statement.sealed :: sealedStmts rest

def sealedBlock : Block Stmt → Block Stmt
  | ⟨span, statements⟩ => ⟨span, sealedStmts statements⟩

def sealedOptionBlock : Option (Block Stmt) → Option (Block Stmt)
  | none => none
  | some content => some (sealedBlock content)

def sealedBody : Body Stmt → Body Stmt
  | .single statement => .single statement.sealed
  | .colon span statements => .colon span (sealedStmts statements)

def sealedElseIfs : List (ElseIf Expr Stmt) → List (ElseIf Expr Stmt)
  | [] => []
  | clause :: rest => sealedElseIf clause :: sealedElseIfs rest

def sealedElseIf : ElseIf Expr Stmt → ElseIf Expr Stmt
  | ⟨span, condition, body⟩ => ⟨span, condition.sealed, sealedBody body⟩

def sealedElse : Option (Else Stmt) → Option (Else Stmt)
  | none => none
  | some clause => some (sealedElseClause clause)

def sealedElseClause : Else Stmt → Else Stmt
  | ⟨span, body⟩ => ⟨span, sealedBody body⟩

def sealedCases : List (SwitchCase Expr Stmt) → List (SwitchCase Expr Stmt)
  | [] => []
  | clause :: rest => sealedCase clause :: sealedCases rest

def sealedCase : SwitchCase Expr Stmt → SwitchCase Expr Stmt
  | ⟨span, condition, statements⟩ => ⟨span, condition.map Expr.sealed, sealedStmts statements⟩

def sealedCatches : List (Catch Stmt) → List (Catch Stmt)
  | [] => []
  | clause :: rest => sealedCatch clause :: sealedCatches rest

def sealedCatch : Catch Stmt → Catch Stmt
  | ⟨span, types, binding, content⟩ => ⟨span, types, binding, sealedBlock content⟩

def sealedMembers : List (Member Expr Stmt) → List (Member Expr Stmt)
  | [] => []
  | member :: rest => sealedMember member :: sealedMembers rest

def sealedMember : Member Expr Stmt → Member Expr Stmt
  | .method content => .method (sealedMethod content)
  | .property span modifiers hint entries untyped =>
      .property span modifiers hint (entries.map VariableEntry.sealed) untyped
  | .constant span modifiers hint entries =>
      .constant span modifiers hint (entries.map ConstantEntry.sealed)
  | .traits span names => .traits span names
  | .enumCase span name value => .enumCase span name (value.map Expr.sealed)

def sealedMethod : Method Expr Stmt → Method Expr Stmt
  | ⟨span, name, modifiers, parameters, returnHint, body, byRef⟩ =>
      ⟨span, name, modifiers, parameters.map Parameter.sealed, returnHint,
        sealedOptionBlock body, byRef⟩

def sealedDeclaration : Declaration Expr Stmt → Declaration Expr Stmt
  | ⟨span, name, kind, members⟩ => ⟨span, name, kind, sealedMembers members⟩

end

attribute [local simp] Stmt.sealed

@[simp] theorem sealedStmts_eq_map (statements : List Stmt) :
    sealedStmts statements = statements.map Stmt.sealed := by
  induction statements with
  | nil => rfl
  | cons statement rest ih => rw [sealedStmts, ih, List.map_cons]

@[simp] theorem sealedElseIfs_eq_map (elseIfs : List (ElseIf Expr Stmt)) :
    sealedElseIfs elseIfs = elseIfs.map sealedElseIf := by
  induction elseIfs with
  | nil => rfl
  | cons clause rest ih => rw [sealedElseIfs, ih, List.map_cons]

@[simp] theorem sealedElse_eq_map (otherwise : Option (Else Stmt)) :
    sealedElse otherwise = otherwise.map sealedElseClause := by
  cases otherwise <;> rfl

@[simp] theorem sealedCases_eq_map (cases : List (SwitchCase Expr Stmt)) :
    sealedCases cases = cases.map sealedCase := by
  induction cases with
  | nil => rfl
  | cons clause rest ih => rw [sealedCases, ih, List.map_cons]

@[simp] theorem sealedCatches_eq_map (catches : List (Catch Stmt)) :
    sealedCatches catches = catches.map sealedCatch := by
  induction catches with
  | nil => rfl
  | cons clause rest ih => rw [sealedCatches, ih, List.map_cons]

@[simp] theorem sealedMembers_eq_map (members : List (Member Expr Stmt)) :
    sealedMembers members = members.map sealedMember := by
  induction members with
  | nil => rfl
  | cons member rest ih => rw [sealedMembers, ih, List.map_cons]

@[simp] theorem sealedOptionBlock_eq_map (content : Option (Block Stmt)) :
    sealedOptionBlock content = content.map sealedBlock := by
  cases content <;> rfl

@[simp] theorem sealedBlock_statements (content : Block Stmt) :
    (sealedBlock content).statements = content.statements.map Stmt.sealed := by
  cases content
  exact sealedStmts_eq_map _

@[simp] theorem sealedBody_statements (body : Body Stmt) :
    (sealedBody body).statements = body.statements.map Stmt.sealed := by
  cases body with
  | single statement => rfl
  | colon span statements => exact sealedStmts_eq_map statements

@[simp] theorem sealedElseIf_body (clause : ElseIf Expr Stmt) :
    (sealedElseIf clause).body = sealedBody clause.body := by
  cases clause
  rfl

@[simp] theorem sealedElseIf_condition (clause : ElseIf Expr Stmt) :
    (sealedElseIf clause).condition = clause.condition.sealed := by
  cases clause
  rfl

@[simp] theorem sealedElseClause_body (clause : Else Stmt) :
    (sealedElseClause clause).body = sealedBody clause.body := by
  cases clause
  rfl

@[simp] theorem sealedCase_statements (clause : SwitchCase Expr Stmt) :
    (sealedCase clause).statements = clause.statements.map Stmt.sealed := by
  cases clause
  exact sealedStmts_eq_map _

@[simp] theorem sealedCase_condition (clause : SwitchCase Expr Stmt) :
    (sealedCase clause).condition = clause.condition.map Expr.sealed := by
  cases clause
  rfl

@[simp] theorem sealedCatch_span (clause : Catch Stmt) :
    (sealedCatch clause).span = clause.span := by
  cases clause
  rfl

@[simp] theorem sealedCatch_block (clause : Catch Stmt) :
    (sealedCatch clause).block = sealedBlock clause.block := by
  cases clause
  rfl

@[simp] theorem sealedMethod_body (method : Method Expr Stmt) :
    (sealedMethod method).body = method.body.map sealedBlock := by
  cases method
  exact sealedOptionBlock_eq_map _

@[simp] theorem sealedDeclaration_members (declaration : Declaration Expr Stmt) :
    (sealedDeclaration declaration).members = declaration.members.map sealedMember := by
  cases declaration
  exact sealedMembers_eq_map _

namespace Stmt

theorem sealed_methodStatements (members : List (Member Expr Stmt)) :
    methodStatements (members.map sealedMember) = (methodStatements members).map Stmt.sealed := by
  unfold methodStatements
  rw [List.flatMap_map, List.map_flatMap]
  congr 1
  funext member
  rcases member with ⟨⟨_, _, _, _, _, _ | body, _⟩⟩ | _ | _ | _ | _ <;>
    simp [sealedMember, sealedMethod]

/-- The children of a sealed statement are the sealed children. -/
theorem sealed_children (statement : Stmt) :
    statement.sealed.children = statement.children.map Stmt.sealed := by
  cases statement with
  | declaration content =>
      simp only [Stmt.sealed, children, sealedDeclaration_members, sealed_methodStatements]
  | ifElse span condition body elseIfs otherwise =>
      simp [children, List.flatMap_map, List.map_flatMap, Option.toList_map]
  | switch span subject cases =>
      simp [children, List.flatMap_map, List.map_flatMap]
  | tryCatch span content catches finallyBlock =>
      simp [children, List.flatMap_map, List.map_flatMap, Option.toList_map]
  | declare span directives body =>
      simp [children, List.flatMap_map, List.map_flatMap, Option.toList_map]
  | _ => simp [children]

theorem sealed_flatten (statement : Stmt) :
    statement.sealed.flatten = statement.flatten.map Stmt.sealed := by
  induction statement using induction_on_children with
  | step statement ih =>
      rw [flatten_eq, flatten_eq, sealed_children, List.flatMap_map, List.map_cons,
        List.map_flatMap, List.flatMap_congr ih]

theorem sealed_ownExpressions (statement : Stmt) :
    statement.sealed.ownExpressions = statement.ownExpressions.map Expr.sealed := by
  cases statement with
  | switch span subject cases =>
      simp [ownExpressions, List.filterMap_map, List.map_filterMap]
  | _ => simp [ownExpressions, Option.toList_map]

end Stmt

end PhpAudit
