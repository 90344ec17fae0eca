import PhpAudit.Tree.Basic

/-!
The outline of a tree: every node with its label, its place and its labelled fields. It is the
form in which trees are shown.
-/

namespace PhpAudit

inductive Outline where
  | absent
  | flag (value : Bool)
  | text (value : String)
  | list (items : List Outline)
  | node (label : String) (span : Span) (fields : List (String × Outline))

namespace Outline

def texts (values : List String) : Outline := .list (values.map .text)

def optionalText (value : Option String) : Outline := (value.map .text).getD .absent

end Outline

namespace Expr

def label : Expr → String
  | var _ _ => "Variable"
  | indirect _ _ => "VariableVariable"
  | name _ _ => "Name"
  | literal _ _ _ => "Literal"
  | array _ _ _ => "ArrayLiteral"
  | placeholder _ => "CallablePlaceholder"
  | anonymousClass _ _ _ _ => "AnonymousClass"
  | new _ _ _ => "New"
  | call _ _ _ => "FunctionCall"
  | methodCall _ _ _ _ => "MethodCall"
  | nullsafeMethodCall _ _ _ _ => "NullsafeMethodCall"
  | staticMethodCall _ _ _ _ => "StaticMethodCall"
  | property _ _ _ => "PropertyFetch"
  | nullsafeProperty _ _ _ => "NullsafePropertyFetch"
  | staticProperty _ _ _ => "StaticPropertyFetch"
  | classConstant _ _ _ => "ClassConstantFetch"
  | element _ _ _ => "ArrayAccess"
  | assignment _ _ _ _ _ => "Assignment"
  | binary _ _ _ _ => "Binary"
  | unary _ _ _ _ => "Unary"
  | ternary _ _ _ _ => "Ternary"
  | parenthesized _ _ => "Parenthesized"
  | yield _ _ _ _ => "Yield"
  | closure _ _ _ _ _ _ _ => "Closure"
  | arrowFunction _ _ _ _ _ _ => "ArrowFunction"
  | matching _ _ _ => "Match"

end Expr

namespace DeclarationKind

def label : DeclarationKind → String
  | classType _ _ _ => "Class"
  | interfaceType _ => "Interface"
  | traitType => "Trait"
  | enumType _ _ => "Enum"

end DeclarationKind

namespace Stmt

def label : Stmt → String
  | openingTag _ _ => "OpeningTag"
  | closingTag _ => "ClosingTag"
  | inlineHtml _ _ => "InlineHtml"
  | noop _ => "Noop"
  | expression _ _ => "ExpressionStatement"
  | echo _ _ => "Echo"
  | returnValue _ _ => "Return"
  | block _ => "Block"
  | ifElse _ _ _ _ _ => "If"
  | whileLoop _ _ _ => "While"
  | doWhile _ _ _ => "DoWhile"
  | forLoop _ _ _ _ _ => "For"
  | foreachLoop _ _ _ _ _ _ => "Foreach"
  | switch _ _ _ => "Switch"
  | tryCatch _ _ _ _ => "Try"
  | breakOut _ _ => "Break"
  | continueOn _ _ => "Continue"
  | globals _ _ => "Global"
  | statics _ _ => "StaticVariables"
  | imports _ _ _ => "Use"
  | constants _ _ => "Constant"
  | declare _ _ _ => "Declare"
  | package _ _ _ _ => "Namespace"
  | function _ _ _ _ _ _ => "Function"
  | declaration content => content.kind.label

end Stmt

namespace LiteralKind

def label : LiteralKind → String
  | int => "int"
  | float => "float"
  | string => "string"
  | bool => "bool"
  | null => "null"

end LiteralKind

namespace ArrayForm

def label : ArrayForm → String
  | short => "short"
  | long => "array"
  | list => "list"

end ArrayForm

namespace Identifier

def outline (identifier : Identifier) : Outline :=
  .node "Identifier" identifier.span [("value", .text identifier.value)]

end Identifier

namespace ClosureUse

def outline (item : ClosureUse) : Outline :=
  .node "ClosureUse" item.span [("name", .text item.name), ("by_ref", .flag item.byRef)]

end ClosureUse

namespace UseItem

def outline (item : UseItem) : Outline :=
  .node "UseItem" item.span
    [("name", .text item.name), ("alias", Outline.optionalText item.localName)]

end UseItem

mutual

def Hint.outline : Hint → Outline
  | .named span name => .node "NamedHint" span [("name", .text name)]
  | .keyword span name => .node "KeywordHint" span [("name", .text name)]
  | .builtin span name => .node "BuiltinHint" span [("name", .text name)]
  | .nullable span inner => .node "NullableHint" span [("inner", inner.outline)]
  | .union span types => .node "UnionHint" span [("types", .list (outlineHints types))]
  | .intersection span types =>
      .node "IntersectionHint" span [("types", .list (outlineHints types))]

def outlineHints : List Hint → List Outline
  | [] => []
  | hint :: rest => hint.outline :: outlineHints rest

end

def outlineHint (hint : Option Hint) : Outline := (hint.map Hint.outline).getD .absent

namespace DeclarationKind

/-- The fields of a declaration between its name and its members. -/
def fields : DeclarationKind → List (String × Outline)
  | classType modifiers parent interfaces =>
      [("modifiers", Outline.texts modifiers), ("extends", Outline.optionalText parent),
        ("implements", Outline.texts interfaces)]
  | interfaceType parents => [("extends", Outline.texts parents)]
  | traitType => []
  | enumType backing interfaces =>
      [("backing_type", outlineHint backing), ("implements", Outline.texts interfaces)]

end DeclarationKind

mutual

def Expr.outline : Expr → Outline
  | .var span name => .node "Variable" span [("name", .text name)]
  | .indirect span inner => .node "VariableVariable" span [("inner", inner.outline)]
  | .name span text => .node "Name" span [("name", .text text)]
  | .literal span kind raw =>
      .node "Literal" span [("kind", .text kind.label), ("raw", .text raw)]
  | .array span items form =>
      .node "ArrayLiteral" span
        [("items", .list (outlineItems items)), ("kind", .text form.label)]
  | .placeholder span => .node "CallablePlaceholder" span []
  | .anonymousClass span parent interfaces members =>
      .node "AnonymousClass" span
        [("extends", Outline.optionalText parent), ("implements", Outline.texts interfaces),
          ("members", .list (outlineMembers members))]
  | .new span target arguments =>
      .node "New" span
        [("class_ref", target.outline), ("arguments", .list (outlineArguments arguments))]
  | .call span target arguments =>
      .node "FunctionCall" span
        [("target", target.outline), ("arguments", .list (outlineArguments arguments))]
  | .methodCall span object method arguments =>
      .node "MethodCall" span
        [("object", object.outline), ("method", .text method),
          ("arguments", .list (outlineArguments arguments))]
  | .nullsafeMethodCall span object method arguments =>
      .node "NullsafeMethodCall" span
        [("object", object.outline), ("method", .text method),
          ("arguments", .list (outlineArguments arguments))]
  | .staticMethodCall span target method arguments =>
      .node "StaticMethodCall" span
        [("class_ref", target.outline), ("method", .text method),
          ("arguments", .list (outlineArguments arguments))]
  | .property span object property =>
      .node "PropertyFetch" span [("object", object.outline), ("property", .text property)]
  | .nullsafeProperty span object property =>
      .node "NullsafePropertyFetch" span
        [("object", object.outline), ("property", .text property)]
  | .staticProperty span target property =>
      .node "StaticPropertyFetch" span
        [("class_ref", target.outline), ("property", .text property)]
  | .classConstant span target constant =>
      .node "ClassConstantFetch" span
        [("class_ref", target.outline), ("name", .text constant)]
  | .element span array index =>
      .node "ArrayAccess" span [("array", array.outline), ("index", outlineOption index)]
  | .assignment span target operator value byRef =>
      .node "Assignment" span
        [("target", target.outline), ("operator", .text operator.symbol),
          ("value", value.outline), ("by_ref", .flag byRef)]
  | .binary span left operator right =>
      .node "Binary" span
        [("left", left.outline), ("operator", .text operator.symbol), ("right", right.outline)]
  | .unary span operator operand trailing =>
      .node "Unary" span
        [("operator", .text operator.symbol), ("operand", operand.outline),
          ("postfix", .flag trailing)]
  | .ternary span condition whenTrue whenFalse =>
      .node "Ternary" span
        [("condition", condition.outline), ("then", outlineOption whenTrue),
          ("otherwise", whenFalse.outline)]
  | .parenthesized span inner => .node "Parenthesized" span [("expression", inner.outline)]
  | .yield span key value delegate =>
      .node "Yield" span
        [("key", outlineOption key), ("value", outlineOption value),
          ("delegate", .flag delegate)]
  | .closure span parameters uses returnHint body static byRef =>
      .node "Closure" span
        [("parameters", .list (outlineParameters parameters)),
          ("uses", .list (uses.map ClosureUse.outline)),
          ("return_type", outlineHint returnHint), ("body", outlineBlock body),
          ("static", .flag static), ("by_ref", .flag byRef)]
  | .arrowFunction span parameters returnHint result static byRef =>
      .node "ArrowFunction" span
        [("parameters", .list (outlineParameters parameters)),
          ("return_type", outlineHint returnHint), ("expression", result.outline),
          ("static", .flag static), ("by_ref", .flag byRef)]
  | .matching span subject arms =>
      .node "Match" span
        [("subject", subject.outline), ("arms", .list (outlineArms arms))]

def outlineOption : Option Expr → Outline
  | none => .absent
  | some expression => expression.outline

def outlineExprs : List Expr → List Outline
  | [] => []
  | expression :: rest => expression.outline :: outlineExprs rest

def outlineItems : List (ArrayItem Expr) → List Outline
  | [] => []
  | item :: rest => outlineItem item :: outlineItems rest

def outlineItem : ArrayItem Expr → Outline
  | ⟨span, key, value, byRef, unpack⟩ =>
      .node "ArrayItem" span
        [("key", outlineOption key), ("value", value.outline), ("by_ref", .flag byRef),
          ("unpack", .flag unpack)]

def outlineArguments : List (Argument Expr) → List Outline
  | [] => []
  | argument :: rest => outlineArgument argument :: outlineArguments rest

def outlineArgument : Argument Expr → Outline
  | ⟨span, value, name, unpack⟩ =>
      .node "Argument" span
        [("value", value.outline), ("name", Outline.optionalText name),
          ("unpack", .flag unpack)]

def outlineArms : List (MatchArm Expr) → List Outline
  | [] => []
  | arm :: rest => outlineArm arm :: outlineArms rest

def outlineArm : MatchArm Expr → Outline
  | ⟨span, conditions, result⟩ =>
      .node "MatchArm" span
        [("conditions", if conditions.isEmpty then .absent else .list (outlineExprs conditions)),
          ("expression", result.outline)]

def outlineParameters : List (Parameter Expr) → List Outline
  | [] => []
  | parameter :: rest => outlineParameter parameter :: outlineParameters rest

def outlineParameter : Parameter Expr → Outline
  | ⟨span, name, hint, initial, modifiers, byRef, variadic⟩ =>
      .node "Parameter" span
        [("name", .text name), ("type_hint", outlineHint hint),
          ("default", outlineOption initial), ("modifiers", Outline.texts modifiers),
          ("by_ref", .flag byRef), ("variadic", .flag variadic)]

def outlineBlock : Block Stmt → Outline
  | ⟨span, statements⟩ => .node "Block" span [("statements", .list (outlineStmts statements))]

def outlineOptionBlock : Option (Block Stmt) → Outline
  | none => .absent
  | some block => outlineBlock block

def outlineMembers : List (Member Expr Stmt) → List Outline
  | [] => []
  | member :: rest => outlineMember member :: outlineMembers rest

def outlineMember : Member Expr Stmt → Outline
  | .method content => outlineMethod content
  | .property span modifiers hint entries untyped =>
      .node "Property" span
        [("modifiers", Outline.texts modifiers), ("type_hint", outlineHint hint),
          ("entries", .list (outlineVariables "PropertyEntry" entries)),
          ("var", .flag untyped)]
  | .constant span modifiers hint entries =>
      .node "ClassConstant" span
        [("modifiers", Outline.texts modifiers), ("type_hint", outlineHint hint),
          ("entries", .list (outlineConstants entries))]
  | .traits span names => .node "TraitUse" span [("traits", Outline.texts names)]
  | .enumCase span name value =>
      .node "EnumCase" span [("name", name.outline), ("value", outlineOption value)]

def outlineMethod : Method Expr Stmt → Outline
  | ⟨span, name, modifiers, parameters, returnHint, body, byRef⟩ =>
      .node "Method" span
        [("name", name.outline), ("modifiers", Outline.texts modifiers),
          ("parameters", .list (outlineParameters parameters)),
          ("return_type", outlineHint returnHint), ("body", outlineOptionBlock body),
          ("by_ref", .flag byRef)]

def outlineVariables (label : String) : List (VariableEntry Expr) → List Outline
  | [] => []
  | entry :: rest => outlineVariable label entry :: outlineVariables label rest

def outlineVariable (label : String) : VariableEntry Expr → Outline
  | ⟨span, name, initial⟩ =>
      .node label span [("name", .text name), ("default", outlineOption initial)]

def outlineConstants : List (ConstantEntry Expr) → List Outline
  | [] => []
  | entry :: rest => outlineConstant entry :: outlineConstants rest

def outlineConstant : ConstantEntry Expr → Outline
  | ⟨span, name, value⟩ =>
      .node "ConstantEntry" span [("name", name.outline), ("value", value.outline)]

def outlineDirectives : List (ConstantEntry Expr) → List Outline
  | [] => []
  | entry :: rest => outlineDirective entry :: outlineDirectives rest

def outlineDirective : ConstantEntry Expr → Outline
  | ⟨_, name, value⟩ => .list [.text name.value, value.outline]

def outlineBody : Body Stmt → Outline
  | .single statement => statement.outline
  | .colon span statements =>
      .node "ColonBody" span [("statements", .list (outlineStmts statements))]

def outlineElseIfs : List (ElseIf Expr Stmt) → List Outline
  | [] => []
  | clause :: rest => outlineElseIf clause :: outlineElseIfs rest

def outlineElseIf : ElseIf Expr Stmt → Outline
  | ⟨span, condition, body⟩ =>
      .node "ElseIf" span [("condition", condition.outline), ("body", outlineBody body)]

def outlineOptionElse : Option (Else Stmt) → Outline
  | none => .absent
  | some clause => outlineElse clause

def outlineElse : Else Stmt → Outline
  | ⟨span, body⟩ => .node "Else" span [("body", outlineBody body)]

def outlineCases : List (SwitchCase Expr Stmt) → List Outline
  | [] => []
  | case :: rest => outlineCase case :: outlineCases rest

def outlineCase : SwitchCase Expr Stmt → Outline
  | ⟨span, condition, statements⟩ =>
      .node "SwitchCase" span
        [("condition", outlineOption condition), ("statements", .list (outlineStmts statements))]

def outlineCatches : List (Catch Stmt) → List Outline
  | [] => []
  | clause :: rest => outlineCatch clause :: outlineCatches rest

def outlineCatch : Catch Stmt → Outline
  | ⟨span, types, binding, block⟩ =>
      .node "Catch" span
        [("types", Outline.texts types), ("variable", Outline.optionalText binding),
          ("block", outlineBlock block)]

def outlineStmts : List Stmt → List Outline
  | [] => []
  | statement :: rest => statement.outline :: outlineStmts rest

def outlineDeclaration : Declaration Expr Stmt → Outline
  | ⟨span, name, kind, members⟩ =>
      .node kind.label span
        (("name", name.outline) :: kind.fields ++ [("members", .list (outlineMembers members))])

def Stmt.outline : Stmt → Outline
  | .openingTag span tag => .node "OpeningTag" span [("tag", .text tag)]
  | .closingTag span => .node "ClosingTag" span []
  | .inlineHtml span text => .node "InlineHtml" span [("text", .text text)]
  | .noop span => .node "Noop" span []
  | .expression span expression =>
      .node "ExpressionStatement" span [("expression", expression.outline)]
  | .echo span values => .node "Echo" span [("values", .list (outlineExprs values))]
  | .returnValue span value => .node "Return" span [("value", outlineOption value)]
  | .block content => outlineBlock content
  | .ifElse span condition body elseIfs otherwise =>
      .node "If" span
        [("condition", condition.outline), ("body", outlineBody body),
          ("elseifs", .list (outlineElseIfs elseIfs)),
          ("else_clause", outlineOptionElse otherwise)]
  | .whileLoop span condition body =>
      .node "While" span [("condition", condition.outline), ("body", outlineBody body)]
  | .doWhile span body condition =>
      .node "DoWhile" span [("body", body.outline), ("condition", condition.outline)]
  | .forLoop span initializers conditions steps body =>
      .node "For" span
        [("initializers", .list (outlineExprs initializers)),
          ("conditions", .list (outlineExprs conditions)),
          ("steps", .list (outlineExprs steps)), ("body", outlineBody body)]
  | .foreachLoop span subject key value body byRef =>
      .node "Foreach" span
        [("expression", subject.outline), ("key", outlineOption key), ("value", .flag value),
          ("body", outlineBody body), ("by_ref", byRef.outline)]
  | .switch span subject cases =>
      .node "Switch" span [("subject", subject.outline), ("cases", .list (outlineCases cases))]
  | .tryCatch span block catches finallyBlock =>
      .node "Try" span
        [("block", outlineBlock block), ("catches", .list (outlineCatches catches)),
          ("finally_block", outlineOptionBlock finallyBlock)]
  | .breakOut span level => .node "Break" span [("level", outlineOption level)]
  | .continueOn span level => .node "Continue" span [("level", outlineOption level)]
  | .globals span names => .node "Global" span [("variables", Outline.texts names)]
  | .statics span entries =>
      .node "StaticVariables" span
        [("entries", .list (outlineVariables "StaticVariable" entries))]
  | .imports span kind items =>
      .node "Use" span
        [("kind", .text kind), ("items", .list (items.map UseItem.outline))]
  | .constants span entries =>
      .node "Constant" span [("entries", .list (outlineConstants entries))]
  | .declare span directives body =>
      .node "Declare" span
        [("directives", .list (outlineDirectives directives)),
          ("body", outlineOptionBlock body)]
  | .package span name statements braced =>
      .node "Namespace" span
        [("name", Outline.optionalText name), ("statements", .list (outlineStmts statements)),
          ("braced", .flag braced)]
  | .function span name parameters returnHint body byRef =>
      .node "Function" span
        [("name", name.outline), ("parameters", .list (outlineParameters parameters)),
          ("return_type", outlineHint returnHint), ("body", outlineBlock body),
          ("by_ref", .flag byRef)]
  | .declaration content => outlineDeclaration content

end

end PhpAudit
