import PhpAudit.Text.Span
import PhpAudit.Tree.Operator

/-!
The tree of a PHP text: type hints, expressions, members and statements. Every node
carries the place where it starts. Expressions and statements contain each other, because
a closure has a body and a statement has expressions; the smaller parts are structures
over both kinds.
-/

namespace PhpAudit

structure Identifier where
  span : Span
  value : String
deriving DecidableEq, Inhabited

inductive Hint where
  | named (span : Span) (name : String)
  | keyword (span : Span) (name : String)
  | builtin (span : Span) (name : String)
  | nullable (span : Span) (inner : Hint)
  | union (span : Span) (types : List Hint)
  | intersection (span : Span) (types : List Hint)
deriving Inhabited

inductive LiteralKind where
  | int | float | string | bool | null
deriving DecidableEq, Inhabited

/-- How an array was written: in brackets, with the word `array` or with the word `list`. -/
inductive ArrayForm where
  | short | long | list
deriving DecidableEq, Inhabited

structure ArrayItem (Expression : Type) where
  span : Span
  key : Option Expression
  value : Expression
  byRef : Bool
  unpack : Bool

structure Argument (Expression : Type) where
  span : Span
  value : Expression
  name : Option String
  unpack : Bool

structure MatchArm (Expression : Type) where
  span : Span
  /-- Empty for the default arm. -/
  conditions : List Expression
  result : Expression

structure ClosureUse where
  span : Span
  name : String
  byRef : Bool
deriving DecidableEq, Inhabited

structure Parameter (Expression : Type) where
  span : Span
  name : String
  hint : Option Hint
  initial : Option Expression
  modifiers : List String
  byRef : Bool
  variadic : Bool

structure Block (Statement : Type) where
  span : Span
  statements : List Statement

structure Method (Expression Statement : Type) where
  span : Span
  name : Identifier
  modifiers : List String
  parameters : List (Parameter Expression)
  returnHint : Option Hint
  /-- Absent for abstract and interface methods. -/
  body : Option (Block Statement)
  byRef : Bool

/-- A variable with an optional initial value: one entry of a property declaration or of a
list of static variables. -/
structure VariableEntry (Expression : Type) where
  span : Span
  name : String
  initial : Option Expression

/-- A name with its value: one entry of a constant declaration or one directive. -/
structure ConstantEntry (Expression : Type) where
  span : Span
  name : Identifier
  value : Expression

inductive Member (Expression Statement : Type) where
  | method (content : Method Expression Statement)
  /-- `untyped` tells whether the word `var` was among the modifiers. -/
  | property (span : Span) (modifiers : List String) (hint : Option Hint)
      (entries : List (VariableEntry Expression)) (untyped : Bool)
  | constant (span : Span) (modifiers : List String) (hint : Option Hint)
      (entries : List (ConstantEntry Expression))
  | traits (span : Span) (names : List String)
  | enumCase (span : Span) (name : Identifier) (value : Option Expression)

/-- What distinguishes the four kinds of class-like declarations. -/
inductive DeclarationKind where
  | classType (modifiers : List String) (parent : Option String) (interfaces : List String)
  | interfaceType (parents : List String)
  | traitType
  | enumType (backing : Option Hint) (interfaces : List String)
deriving Inhabited

/-- A class, interface, trait or enum. -/
structure Declaration (Expression Statement : Type) where
  span : Span
  name : Identifier
  kind : DeclarationKind
  members : List (Member Expression Statement)

/-- The body of a control statement: one statement, or a list between a colon and an
end word. -/
inductive Body (Statement : Type) where
  | single (statement : Statement)
  | colon (span : Span) (statements : List Statement)

structure ElseIf (Expression Statement : Type) where
  span : Span
  condition : Expression
  body : Body Statement

structure Else (Statement : Type) where
  span : Span
  body : Body Statement

structure SwitchCase (Expression Statement : Type) where
  span : Span
  /-- Absent for the default case. -/
  condition : Option Expression
  statements : List Statement

structure Catch (Statement : Type) where
  span : Span
  types : List String
  binding : Option String
  block : Block Statement

structure UseItem where
  span : Span
  name : String
  localName : Option String
deriving DecidableEq, Inhabited

mutual

inductive Expr where
  | var (span : Span) (name : String)
  | indirect (span : Span) (inner : Expr)
  | name (span : Span) (text : String)
  | literal (span : Span) (kind : LiteralKind) (raw : String)
  | array (span : Span) (items : List (ArrayItem Expr)) (form : ArrayForm)
  | placeholder (span : Span)
  | anonymousClass (span : Span) (parent : Option String) (interfaces : List String)
      (members : List (Member Expr Stmt))
  | new (span : Span) (target : Expr) (arguments : List (Argument Expr))
  | call (span : Span) (target : Expr) (arguments : List (Argument Expr))
  | methodCall (span : Span) (object : Expr) (method : String) (arguments : List (Argument Expr))
  | nullsafeMethodCall (span : Span) (object : Expr) (method : String)
      (arguments : List (Argument Expr))
  | staticMethodCall (span : Span) (target : Expr) (method : String)
      (arguments : List (Argument Expr))
  | property (span : Span) (object : Expr) (property : String)
  | nullsafeProperty (span : Span) (object : Expr) (property : String)
  | staticProperty (span : Span) (target : Expr) (property : String)
  | classConstant (span : Span) (target : Expr) (constant : String)
  | element (span : Span) (array : Expr) (index : Option Expr)
  | assignment (span : Span) (target : Expr) (operator : AssignOperator) (value : Expr)
      (byRef : Bool)
  | binary (span : Span) (left : Expr) (operator : BinaryOperator) (right : Expr)
  | unary (span : Span) (operator : UnaryOperator) (operand : Expr) (trailing : Bool)
  | ternary (span : Span) (condition : Expr) (whenTrue : Option Expr) (whenFalse : Expr)
  | parenthesized (span : Span) (inner : Expr)
  | yield (span : Span) (key : Option Expr) (value : Option Expr) (delegate : Bool)
  | closure (span : Span) (parameters : List (Parameter Expr)) (uses : List ClosureUse)
      (returnHint : Option Hint) (body : Block Stmt) (static : Bool) (byRef : Bool)
  | arrowFunction (span : Span) (parameters : List (Parameter Expr)) (returnHint : Option Hint)
      (result : Expr) (static : Bool) (byRef : Bool)
  | matching (span : Span) (subject : Expr) (arms : List (MatchArm Expr))

inductive Stmt where
  | openingTag (span : Span) (tag : String)
  | closingTag (span : Span)
  | inlineHtml (span : Span) (text : String)
  | noop (span : Span)
  | expression (span : Span) (expression : Expr)
  | echo (span : Span) (values : List Expr)
  | returnValue (span : Span) (value : Option Expr)
  | block (block : Block Stmt)
  | ifElse (span : Span) (condition : Expr) (body : Body Stmt) (elseIfs : List (ElseIf Expr Stmt))
      (otherwise : Option (Else Stmt))
  | whileLoop (span : Span) (condition : Expr) (body : Body Stmt)
  | doWhile (span : Span) (body : Stmt) (condition : Expr)
  | forLoop (span : Span) (initializers conditions steps : List Expr) (body : Body Stmt)
  /-- `value` is the mark of a loop by reference and `byRef` the target of the loop. -/
  | foreachLoop (span : Span) (subject : Expr) (key : Option Expr) (value : Bool)
      (body : Body Stmt) (byRef : Expr)
  | switch (span : Span) (subject : Expr) (cases : List (SwitchCase Expr Stmt))
  | tryCatch (span : Span) (block : Block Stmt) (catches : List (Catch Stmt))
      (finallyBlock : Option (Block Stmt))
  | breakOut (span : Span) (level : Option Expr)
  | continueOn (span : Span) (level : Option Expr)
  | globals (span : Span) (names : List String)
  | statics (span : Span) (entries : List (VariableEntry Expr))
  | imports (span : Span) (kind : String) (items : List UseItem)
  | constants (span : Span) (entries : List (ConstantEntry Expr))
  | declare (span : Span) (directives : List (ConstantEntry Expr)) (body : Option (Block Stmt))
  | package (span : Span) (name : Option String) (statements : List Stmt) (braced : Bool)
  | function (span : Span) (name : Identifier) (parameters : List (Parameter Expr))
      (returnHint : Option Hint) (body : Block Stmt) (byRef : Bool)
  | declaration (declaration : Declaration Expr Stmt)

end

instance : Inhabited Expr := ⟨.placeholder {}⟩

instance : Inhabited Stmt := ⟨.noop {}⟩

namespace Hint

def span : Hint → Span
  | named span _ | keyword span _ | builtin span _ => span
  | nullable span _ | union span _ | intersection span _ => span

end Hint

namespace Expr

def span : Expr → Span
  | var span _ | indirect span _ | name span _ | literal span _ _ => span
  | array span _ _ | placeholder span | anonymousClass span _ _ _ | new span _ _ => span
  | call span _ _ | methodCall span _ _ _ | nullsafeMethodCall span _ _ _ => span
  | staticMethodCall span _ _ _ | property span _ _ | nullsafeProperty span _ _ => span
  | staticProperty span _ _ | classConstant span _ _ | element span _ _ => span
  | assignment span _ _ _ _ | binary span _ _ _ | unary span _ _ _ | ternary span _ _ _ => span
  | parenthesized span _ | yield span _ _ _ | closure span _ _ _ _ _ _ => span
  | arrowFunction span _ _ _ _ _ | matching span _ _ => span

end Expr

namespace Stmt

def span : Stmt → Span
  | openingTag span _ | closingTag span | inlineHtml span _ | noop span => span
  | expression span _ | echo span _ | returnValue span _ | ifElse span _ _ _ _ => span
  | block content => content.span
  | whileLoop span _ _ | doWhile span _ _ | forLoop span _ _ _ _ => span
  | foreachLoop span _ _ _ _ _ | switch span _ _ | tryCatch span _ _ _ => span
  | breakOut span _ | continueOn span _ | globals span _ | statics span _ => span
  | imports span _ _ | constants span _ | declare span _ _ | package span _ _ _ => span
  | function span _ _ _ _ _ => span
  | declaration content => content.span

end Stmt

namespace Body

/-- The statements of a body; a braced block stays one statement. -/
def statements {Statement : Type} : Body Statement → List Statement
  | single statement => [statement]
  | colon _ statements => statements

/-- Whether the body is written between braces or between a colon and an end word. -/
def delimited : Body Stmt → Bool
  | single (.block _) => true
  | single _ => false
  | colon _ _ => true

end Body

namespace Declaration

def methods {Expression Statement : Type} (declaration : Declaration Expression Statement) :
    List (Method Expression Statement) :=
  declaration.members.filterMap fun
    | .method method => some method
    | _ => none

end Declaration

end PhpAudit
