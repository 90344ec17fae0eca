import PhpAudit.Proofs.WalkSteps

/-!
Trees in another spelling. A spelling says how the variables of a tree are written and how the
classes that stand before a double colon are. Respelling changes these names everywhere in the
tree, also inside of closures, classes and functions, and leaves everything else in its place. It
goes along with the ways in which a tree is searched for calls.
-/

namespace PhpAudit

/-- How variables are written, and how classes before a double colon are. -/
structure Spelling where
  var : String → String := id
  reference : String → String := id

/-- An expression in place of which a name is written differently. -/
def Expr.renamed (write : String → String) : Expr → Expr
  | .name span text => .name span (write text)
  | expression => expression

mutual

/-- An expression in another spelling. -/
def Expr.respelled (spelling : Spelling) : Expr → Expr
  | .var span name => .var span (spelling.var name)
  | .name span text => .name span text
  | .literal span kind raw => .literal span kind raw
  | .placeholder span => .placeholder span
  | .indirect span inner => .indirect span (inner.respelled spelling)
  | .array span items form => .array span (respelledItems spelling items) form
  | .anonymousClass span parent interfaces members =>
      .anonymousClass span parent interfaces (respelledMembers spelling members)
  | .new span target arguments =>
      .new span (target.respelled spelling) (respelledArguments spelling arguments)
  | .call span target arguments =>
      .call span (target.respelled spelling) (respelledArguments spelling arguments)
  | .methodCall span object method arguments =>
      .methodCall span (object.respelled spelling) method (respelledArguments spelling arguments)
  | .nullsafeMethodCall span object method arguments =>
      .nullsafeMethodCall span (object.respelled spelling) method
        (respelledArguments spelling arguments)
  | .staticMethodCall span target method arguments =>
      .staticMethodCall span ((target.respelled spelling).renamed spelling.reference) method
        (respelledArguments spelling arguments)
  | .property span object selector => .property span (object.respelled spelling) selector
  | .nullsafeProperty span object selector =>
      .nullsafeProperty span (object.respelled spelling) selector
  | .staticProperty span target selector =>
      .staticProperty span ((target.respelled spelling).renamed spelling.reference) selector
  | .classConstant span target selector =>
      .classConstant span ((target.respelled spelling).renamed spelling.reference) selector
  | .element span holder index =>
      .element span (holder.respelled spelling) (respelledOption spelling index)
  | .assignment span target operator value byRef =>
      .assignment span (target.respelled spelling) operator (value.respelled spelling) byRef
  | .binary span left operator right =>
      .binary span (left.respelled spelling) operator (right.respelled spelling)
  | .unary span operator operand trailing =>
      .unary span operator (operand.respelled spelling) trailing
  | .ternary span condition whenTrue whenFalse =>
      .ternary span (condition.respelled spelling) (respelledOption spelling whenTrue)
        (whenFalse.respelled spelling)
  | .parenthesized span inner => .parenthesized span (inner.respelled spelling)
  | .yield span key value delegate =>
      .yield span (respelledOption spelling key) (respelledOption spelling value) delegate
  | .closure span parameters uses returnHint body static byRef =>
      .closure span (respelledParameters spelling parameters) uses returnHint
        (respelledBlock spelling body) static byRef
  | .arrowFunction span parameters returnHint result static byRef =>
      .arrowFunction span (respelledParameters spelling parameters) returnHint
        (result.respelled spelling) static byRef
  | .matching span subject arms =>
      .matching span (subject.respelled spelling) (respelledArms spelling arms)

def respelledOption (spelling : Spelling) : Option Expr → Option Expr
  | none => none
  | some expression => some (expression.respelled spelling)

def respelledAll (spelling : Spelling) : List Expr → List Expr
  | [] => []
  | expression :: rest => expression.respelled spelling :: respelledAll spelling rest

def respelledItems (spelling : Spelling) : List (ArrayItem Expr) → List (ArrayItem Expr)
  | [] => []
  | item :: rest => respelledItem spelling item :: respelledItems spelling rest

def respelledItem (spelling : Spelling) : ArrayItem Expr → ArrayItem Expr
  | ⟨span, key, value, byRef, unpack⟩ =>
      ⟨span, respelledOption spelling key, value.respelled spelling, byRef, unpack⟩

def respelledArguments (spelling : Spelling) : List (Argument Expr) → List (Argument Expr)
  | [] => []
  | argument :: rest => respelledArgument spelling argument :: respelledArguments spelling rest

def respelledArgument (spelling : Spelling) : Argument Expr → Argument Expr
  | ⟨span, value, name, unpack⟩ => ⟨span, value.respelled spelling, name, unpack⟩

def respelledArms (spelling : Spelling) : List (MatchArm Expr) → List (MatchArm Expr)
  | [] => []
  | arm :: rest => respelledArm spelling arm :: respelledArms spelling rest

def respelledArm (spelling : Spelling) : MatchArm Expr → MatchArm Expr
  | ⟨span, conditions, result⟩ =>
      ⟨span, respelledAll spelling conditions, result.respelled spelling⟩

def respelledParameters (spelling : Spelling) : List (Parameter Expr) → List (Parameter Expr)
  | [] => []
  | parameter :: rest =>
      respelledParameter spelling parameter :: respelledParameters spelling rest

def respelledParameter (spelling : Spelling) : Parameter Expr → Parameter Expr
  | ⟨span, name, hint, initial, modifiers, byRef, variadic⟩ =>
      ⟨span, name, hint, respelledOption spelling initial, modifiers, byRef, variadic⟩

def respelledBlock (spelling : Spelling) : Block Stmt → Block Stmt
  | ⟨span, statements⟩ => ⟨span, respelledStmts spelling statements⟩

def respelledOptionBlock (spelling : Spelling) : Option (Block Stmt) → Option (Block Stmt)
  | none => none
  | some content => some (respelledBlock spelling content)

def respelledMembers (spelling : Spelling) : List (Member Expr Stmt) → List (Member Expr Stmt)
  | [] => []
  | member :: rest => respelledMember spelling member :: respelledMembers spelling rest

def respelledMember (spelling : Spelling) : Member Expr Stmt → Member Expr Stmt
  | .method content => .method (respelledMethod spelling content)
  | .property span modifiers hint entries untyped =>
      .property span modifiers hint (respelledVariables spelling entries) untyped
  | .constant span modifiers hint entries =>
      .constant span modifiers hint (respelledConstants spelling entries)
  | .traits span names => .traits span names
  | .enumCase span name value => .enumCase span name (respelledOption spelling value)

def respelledMethod (spelling : Spelling) : Method Expr Stmt → Method Expr Stmt
  | ⟨span, name, modifiers, parameters, returnHint, body, byRef⟩ =>
      ⟨span, name, modifiers, respelledParameters spelling parameters, returnHint,
        respelledOptionBlock spelling body, byRef⟩

def respelledVariables (spelling : Spelling) :
    List (VariableEntry Expr) → List (VariableEntry Expr)
  | [] => []
  | entry :: rest => respelledVariable spelling entry :: respelledVariables spelling rest

def respelledVariable (spelling : Spelling) : VariableEntry Expr → VariableEntry Expr
  | ⟨span, name, initial⟩ => ⟨span, name, respelledOption spelling initial⟩

def respelledConstants (spelling : Spelling) :
    List (ConstantEntry Expr) → List (ConstantEntry Expr)
  | [] => []
  | entry :: rest => respelledConstant spelling entry :: respelledConstants spelling rest

def respelledConstant (spelling : Spelling) : ConstantEntry Expr → ConstantEntry Expr
  | ⟨span, name, value⟩ => ⟨span, name, value.respelled spelling⟩

def respelledBody (spelling : Spelling) : Body Stmt → Body Stmt
  | .single statement => .single (statement.respelled spelling)
  | .colon span statements => .colon span (respelledStmts spelling statements)

def respelledElseIfs (spelling : Spelling) : List (ElseIf Expr Stmt) → List (ElseIf Expr Stmt)
  | [] => []
  | clause :: rest => respelledElseIf spelling clause :: respelledElseIfs spelling rest

def respelledElseIf (spelling : Spelling) : ElseIf Expr Stmt → ElseIf Expr Stmt
  | ⟨span, condition, body⟩ =>
      ⟨span, condition.respelled spelling, respelledBody spelling body⟩

def respelledElse (spelling : Spelling) : Option (Else Stmt) → Option (Else Stmt)
  | none => none
  | some clause => some (respelledElseClause spelling clause)

def respelledElseClause (spelling : Spelling) : Else Stmt → Else Stmt
  | ⟨span, body⟩ => ⟨span, respelledBody spelling body⟩

def respelledCases (spelling : Spelling) :
    List (SwitchCase Expr Stmt) → List (SwitchCase Expr Stmt)
  | [] => []
  | clause :: rest => respelledCase spelling clause :: respelledCases spelling rest

def respelledCase (spelling : Spelling) : SwitchCase Expr Stmt → SwitchCase Expr Stmt
  | ⟨span, condition, statements⟩ =>
      ⟨span, respelledOption spelling condition, respelledStmts spelling statements⟩

def respelledCatches (spelling : Spelling) : List (Catch Stmt) → List (Catch Stmt)
  | [] => []
  | clause :: rest => respelledCatch spelling clause :: respelledCatches spelling rest

def respelledCatch (spelling : Spelling) : Catch Stmt → Catch Stmt
  | ⟨span, types, binding, content⟩ => ⟨span, types, binding, respelledBlock spelling content⟩

def respelledStmts (spelling : Spelling) : List Stmt → List Stmt
  | [] => []
  | statement :: rest => statement.respelled spelling :: respelledStmts spelling rest

def respelledDeclaration (spelling : Spelling) : Declaration Expr Stmt → Declaration Expr Stmt
  | ⟨span, name, kind, members⟩ => ⟨span, name, kind, respelledMembers spelling members⟩

/-- A statement in another spelling. -/
def Stmt.respelled (spelling : Spelling) : Stmt → Stmt
  | .openingTag span tag => .openingTag span tag
  | .closingTag span => .closingTag span
  | .inlineHtml span text => .inlineHtml span text
  | .noop span => .noop span
  | .expression span value => .expression span (value.respelled spelling)
  | .echo span values => .echo span (respelledAll spelling values)
  | .returnValue span value => .returnValue span (respelledOption spelling value)
  | .block content => .block (respelledBlock spelling content)
  | .ifElse span condition body elseIfs otherwise =>
      .ifElse span (condition.respelled spelling) (respelledBody spelling body)
        (respelledElseIfs spelling elseIfs) (respelledElse spelling otherwise)
  | .whileLoop span condition body =>
      .whileLoop span (condition.respelled spelling) (respelledBody spelling body)
  | .doWhile span body condition =>
      .doWhile span (body.respelled spelling) (condition.respelled spelling)
  | .forLoop span initializers conditions steps body =>
      .forLoop span (respelledAll spelling initializers) (respelledAll spelling conditions)
        (respelledAll spelling steps) (respelledBody spelling body)
  | .foreachLoop span subject key value body byRef =>
      .foreachLoop span (subject.respelled spelling) (respelledOption spelling key) value
        (respelledBody spelling body) (byRef.respelled spelling)
  | .switch span subject cases =>
      .switch span (subject.respelled spelling) (respelledCases spelling cases)
  | .tryCatch span content catches finallyBlock =>
      .tryCatch span (respelledBlock spelling content) (respelledCatches spelling catches)
        (respelledOptionBlock spelling finallyBlock)
  | .breakOut span level => .breakOut span (respelledOption spelling level)
  | .continueOn span level => .continueOn span (respelledOption spelling level)
  | .globals span names => .globals span names
  | .statics span entries => .statics span (respelledVariables spelling entries)
  | .imports span kind items => .imports span kind items
  | .constants span entries => .constants span (respelledConstants spelling entries)
  | .declare span directives body =>
      .declare span (respelledConstants spelling directives) (respelledOptionBlock spelling body)
  | .package span name statements braced =>
      .package span name (respelledStmts spelling statements) braced
  | .function span name parameters returnHint body byRef =>
      .function span name (respelledParameters spelling parameters) returnHint
        (respelledBlock spelling body) byRef
  | .declaration content => .declaration (respelledDeclaration spelling content)

end

-- The equations are made here, once, for all proofs below.
attribute [local simp] Expr.respelled Stmt.respelled

/-! Parts of a respelled tree -/

/-- A function that goes through a list item by item is a map. -/
theorem eq_map_of_cons {Item Value : Type} {one : Item → Value} {all : List Item → List Value}
    (empty : all [] = []) (step : ∀ item rest, all (item :: rest) = one item :: all rest)
    (items : List Item) : all items = items.map one := by
  induction items with
  | nil => exact empty
  | cons item rest ih => rw [step, ih, List.map_cons]

section Parts

variable (spelling : Spelling)

@[simp] theorem respelledOption_eq_map (expression : Option Expr) :
    respelledOption spelling expression = expression.map (Expr.respelled spelling) := by
  cases expression <;> rfl

@[simp] theorem respelledAll_eq_map (expressions : List Expr) :
    respelledAll spelling expressions = expressions.map (Expr.respelled spelling) :=
  eq_map_of_cons rfl (fun _ _ => rfl) expressions

@[simp] theorem respelledItems_eq_map (items : List (ArrayItem Expr)) :
    respelledItems spelling items = items.map (respelledItem spelling) :=
  eq_map_of_cons rfl (fun _ _ => rfl) items

@[simp] theorem respelledArguments_eq_map (arguments : List (Argument Expr)) :
    respelledArguments spelling arguments = arguments.map (respelledArgument spelling) :=
  eq_map_of_cons rfl (fun _ _ => rfl) arguments

@[simp] theorem respelledArms_eq_map (arms : List (MatchArm Expr)) :
    respelledArms spelling arms = arms.map (respelledArm spelling) :=
  eq_map_of_cons rfl (fun _ _ => rfl) arms

@[simp] theorem respelledStmts_eq_map (statements : List Stmt) :
    respelledStmts spelling statements = statements.map (Stmt.respelled spelling) :=
  eq_map_of_cons rfl (fun _ _ => rfl) statements

@[simp] theorem respelledElseIfs_eq_map (elseIfs : List (ElseIf Expr Stmt)) :
    respelledElseIfs spelling elseIfs = elseIfs.map (respelledElseIf spelling) :=
  eq_map_of_cons rfl (fun _ _ => rfl) elseIfs

@[simp] theorem respelledElse_eq_map (otherwise : Option (Else Stmt)) :
    respelledElse spelling otherwise = otherwise.map (respelledElseClause spelling) := by
  cases otherwise <;> rfl

@[simp] theorem respelledCases_eq_map (cases : List (SwitchCase Expr Stmt)) :
    respelledCases spelling cases = cases.map (respelledCase spelling) :=
  eq_map_of_cons rfl (fun _ _ => rfl) cases

@[simp] theorem respelledCatches_eq_map (catches : List (Catch Stmt)) :
    respelledCatches spelling catches = catches.map (respelledCatch spelling) :=
  eq_map_of_cons rfl (fun _ _ => rfl) catches

@[simp] theorem respelledOptionBlock_eq_map (content : Option (Block Stmt)) :
    respelledOptionBlock spelling content = content.map (respelledBlock spelling) := by
  cases content <;> rfl

@[simp] theorem respelledMembers_eq_map (members : List (Member Expr Stmt)) :
    respelledMembers spelling members = members.map (respelledMember spelling) :=
  eq_map_of_cons rfl (fun _ _ => rfl) members

@[simp] theorem respelledItem_eq (item : ArrayItem Expr) :
    respelledItem spelling item =
      { item with
        key := item.key.map (Expr.respelled spelling)
        value := item.value.respelled spelling } := by
  cases item
  simp [respelledItem]

@[simp] theorem respelledArgument_eq (argument : Argument Expr) :
    respelledArgument spelling argument =
      { argument with value := argument.value.respelled spelling } := by
  cases argument
  rfl

@[simp] theorem respelledArm_eq (arm : MatchArm Expr) :
    respelledArm spelling arm =
      { arm with
        conditions := arm.conditions.map (Expr.respelled spelling)
        result := arm.result.respelled spelling } := by
  cases arm
  simp [respelledArm]

@[simp] theorem respelledBlock_eq (content : Block Stmt) :
    respelledBlock spelling content =
      { content with statements := content.statements.map (Stmt.respelled spelling) } := by
  cases content
  simp [respelledBlock]

@[simp] theorem respelledBody_statements (body : Body Stmt) :
    (respelledBody spelling body).statements = body.statements.map (Stmt.respelled spelling) := by
  cases body with
  | single statement => rfl
  | colon span statements => exact respelledStmts_eq_map spelling statements

@[simp] theorem respelledElseIf_eq (clause : ElseIf Expr Stmt) :
    respelledElseIf spelling clause =
      { clause with
        condition := clause.condition.respelled spelling
        body := respelledBody spelling clause.body } := by
  cases clause
  rfl

@[simp] theorem respelledElseClause_eq (clause : Else Stmt) :
    respelledElseClause spelling clause =
      { clause with body := respelledBody spelling clause.body } := by
  cases clause
  rfl

@[simp] theorem respelledCase_eq (clause : SwitchCase Expr Stmt) :
    respelledCase spelling clause =
      { clause with
        condition := clause.condition.map (Expr.respelled spelling)
        statements := clause.statements.map (Stmt.respelled spelling) } := by
  cases clause
  simp [respelledCase]

@[simp] theorem respelledCatch_eq (clause : Catch Stmt) :
    respelledCatch spelling clause =
      { clause with block := respelledBlock spelling clause.block } := by
  cases clause
  rfl

@[simp] theorem respelledMethod_eq (method : Method Expr Stmt) :
    respelledMethod spelling method =
      { method with
        parameters := respelledParameters spelling method.parameters
        body := method.body.map (respelledBlock spelling) } := by
  cases method
  simp [respelledMethod]

@[simp] theorem respelledDeclaration_eq (declaration : Declaration Expr Stmt) :
    respelledDeclaration spelling declaration =
      { declaration with members := declaration.members.map (respelledMember spelling) } := by
  cases declaration
  simp [respelledDeclaration]

end Parts

/-! Steps of a walk -/

/-- A step that looks at a respelled expression or enters a respelled statement. -/
def Step.respelled (spelling : Spelling) : Step → Step
  | perform expression => perform (expression.respelled spelling)
  | resolve expression => resolve (expression.respelled spelling)
  | enter statement => enter (statement.respelled spelling)

/-- The walk through a respelled statement takes the respelled steps. -/
theorem Stmt.respelled_steps (spelling : Spelling) (statement : Stmt) :
    (statement.respelled spelling).steps = statement.steps.map (Step.respelled spelling) := by
  cases statement with
  | ifElse span condition body elseIfs otherwise =>
      simp [steps, Step.respelled, Function.comp_def, List.flatMap_map, List.map_flatMap,
        Option.toList_map]
  | switch span subject cases =>
      simp [steps, Step.respelled, Function.comp_def, List.flatMap_map, List.map_flatMap,
        Option.toList_map]
  | tryCatch span content catches finallyBlock =>
      simp [steps, Step.respelled, Function.comp_def, List.flatMap_map, List.map_flatMap,
        Option.toList_map]
  | _ => simp [steps, Step.respelled, Function.comp_def, Option.toList_map]

end PhpAudit
