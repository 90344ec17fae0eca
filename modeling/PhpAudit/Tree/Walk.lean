import PhpAudit.Tree.Basic

/-!
Looking through trees. A walk visits an expression and all expressions inside it, a flattening a
statement and all statements inside it, in both cases the outer one before the inner ones and
those from left to right. Both keep the nodes still to visit on a stack. Closures, arrow
functions, anonymous classes and named functions are scopes of their own and are not entered.
-/

namespace PhpAudit

namespace Expr

def subexpressions : Expr → List Expr
  | var _ _ | name _ _ | literal _ _ _ | placeholder _ => []
  | closure _ _ _ _ _ _ _ | arrowFunction _ _ _ _ _ _ | anonymousClass _ _ _ _ => []
  | indirect _ inner => [inner]
  | array _ items _ => items.flatMap fun item => item.key.toList ++ [item.value]
  | new _ target arguments => target :: arguments.map Argument.value
  | call _ target arguments => target :: arguments.map Argument.value
  | methodCall _ object _ arguments => object :: arguments.map Argument.value
  | nullsafeMethodCall _ object _ arguments => object :: arguments.map Argument.value
  | staticMethodCall _ target _ arguments => target :: arguments.map Argument.value
  | property _ object _ | nullsafeProperty _ object _ => [object]
  | staticProperty _ target _ | classConstant _ target _ => [target]
  | element _ holder index => holder :: index.toList
  | assignment _ target _ value _ => [target, value]
  | binary _ left _ right => [left, right]
  | unary _ _ operand _ => [operand]
  | ternary _ condition whenTrue whenFalse => condition :: whenTrue.toList ++ [whenFalse]
  | parenthesized _ inner => [inner]
  | yield _ key value _ => key.toList ++ value.toList
  | matching _ subject arms =>
      subject :: arms.flatMap fun arm => arm.conditions ++ [arm.result]

/-- The size of a stack of expressions, by which a walk comes to its end. -/
noncomputable def weight : List Expr → Nat
  | [] => 0
  | expression :: rest => sizeOf expression + weight rest

@[simp] theorem weight_nil : weight [] = 0 := rfl

@[simp] theorem weight_cons (expression : Expr) (rest : List Expr) :
    weight (expression :: rest) = sizeOf expression + weight rest := rfl

@[simp] theorem weight_append (first second : List Expr) :
    weight (first ++ second) = weight first + weight second := by
  induction first with
  | nil => simp
  | cons expression rest ih => simp [ih, Nat.add_assoc]

theorem weight_toList (expression : Option Expr) :
    weight expression.toList < sizeOf expression := by
  cases expression <;> simp

theorem weight_arguments (arguments : List (Argument Expr)) :
    weight (arguments.map Argument.value) < sizeOf arguments := by
  induction arguments with
  | nil => simp
  | cons argument rest ih =>
      rcases argument with ⟨span, value, label, unpack⟩
      simp at ih ⊢
      omega

theorem weight_items (items : List (ArrayItem Expr)) :
    weight (items.flatMap fun item => item.key.toList ++ [item.value]) < sizeOf items := by
  induction items with
  | nil => simp
  | cons item rest ih =>
      rcases item with ⟨span, key, value, byRef, unpack⟩
      have keyWeight := weight_toList key
      simp at ih ⊢
      omega

theorem weight_list (expressions : List Expr) : weight expressions < sizeOf expressions := by
  induction expressions with
  | nil => simp
  | cons expression rest ih =>
      simp
      omega

theorem weight_arms (arms : List (MatchArm Expr)) :
    weight (arms.flatMap fun arm => arm.conditions ++ [arm.result]) < sizeOf arms := by
  induction arms with
  | nil => simp
  | cons arm rest ih =>
      rcases arm with ⟨span, conditions, result⟩
      have conditionsWeight := weight_list conditions
      simp at ih ⊢
      omega

theorem weight_subexpressions (expression : Expr) :
    weight expression.subexpressions < sizeOf expression := by
  cases expression with
  | array span items form =>
      have bound := weight_items items
      simp [subexpressions]
      omega
  | new span target arguments | call span target arguments =>
      have bound := weight_arguments arguments
      simp [subexpressions]
      omega
  | methodCall span target selector arguments | nullsafeMethodCall span target selector arguments
  | staticMethodCall span target selector arguments =>
      have bound := weight_arguments arguments
      simp [subexpressions]
      omega
  | element span array index =>
      have bound := weight_toList index
      simp [subexpressions]
      omega
  | ternary span condition whenTrue whenFalse =>
      have bound := weight_toList whenTrue
      simp [subexpressions]
      omega
  | yield span key value delegate =>
      have keyBound := weight_toList key
      have valueBound := weight_toList value
      simp [subexpressions]
      omega
  | matching span subject arms =>
      have bound := weight_arms arms
      simp [subexpressions]
      omega
  | _ => simp [subexpressions] <;> omega

def walkStack : List Expr → List Expr
  | [] => []
  | expression :: rest => expression :: walkStack (expression.subexpressions ++ rest)
termination_by stack => weight stack
decreasing_by
  have smaller := weight_subexpressions expression
  simp
  omega

def walk (expression : Expr) : List Expr := walkStack [expression]

/-- What an assignment, increment or decrement writes to. -/
def mutatedTarget : Expr → Option Expr
  | assignment _ target _ _ _ => some target
  | unary _ .increment operand _ | unary _ .decrement operand _ => some operand
  | _ => none

/-- An expression without the element accesses around it. -/
def withoutElements : Expr → Expr
  | element _ holder _ => holder.withoutElements
  | expression => expression

def isThis : Expr → Bool
  | var _ variableName => variableName == "$this"
  | _ => false

def isNumber : Expr → Bool
  | literal _ .int _ | literal _ .float _ => true
  | _ => false

mutual

/-- Whether the expression is a literal, a number with a sign, or an array of such values. -/
def isLiteral : Expr → Bool
  | literal _ _ _ => true
  | unary _ .minus operand _ | unary _ .plus operand _ => operand.isNumber
  | array _ items form => form != .list && areLiterals items
  | _ => false

def areLiterals : List (ArrayItem Expr) → Bool
  | [] => true
  | item :: rest => isLiteralItem item && areLiterals rest

def isLiteralItem : ArrayItem Expr → Bool
  | ⟨_, key, value, _, unpack⟩ => !unpack && isLiteral value && isLiteralKey key

def isLiteralKey : Option Expr → Bool
  | none => true
  | some key => isLiteral key

end

end Expr

namespace Stmt

def methodStatements (members : List (Member Expr Stmt)) : List Stmt :=
  members.flatMap fun
    | .method ⟨_, _, _, _, _, some body, _⟩ => body.statements
    | _ => []

def children : Stmt → List Stmt
  | block content => content.statements
  | ifElse _ _ body elseIfs otherwise =>
      body.statements ++ (elseIfs.flatMap fun clause => clause.body.statements) ++
        (otherwise.toList.flatMap fun clause => clause.body.statements)
  | whileLoop _ _ body | forLoop _ _ _ _ body | foreachLoop _ _ _ _ body _ => body.statements
  | doWhile _ body _ => [body]
  | switch _ _ cases => cases.flatMap SwitchCase.statements
  | tryCatch _ content catches finallyBlock =>
      content.statements ++ (catches.flatMap fun clause => clause.block.statements) ++
        (finallyBlock.toList.flatMap fun last => last.statements)
  | package _ _ statements _ => statements
  | declare _ _ body => body.toList.flatMap fun content => content.statements
  | declaration content => methodStatements content.members
  | _ => []

/-- The size of a stack of statements, by which a flattening comes to its end. -/
noncomputable def weight : List Stmt → Nat
  | [] => 0
  | statement :: rest => sizeOf statement + weight rest

@[simp] theorem weight_nil : weight [] = 0 := rfl

@[simp] theorem weight_cons (statement : Stmt) (rest : List Stmt) :
    weight (statement :: rest) = sizeOf statement + weight rest := rfl

@[simp] theorem weight_append (first second : List Stmt) :
    weight (first ++ second) = weight first + weight second := by
  induction first with
  | nil => simp
  | cons statement rest ih => simp [ih, Nat.add_assoc]

theorem weight_list (statements : List Stmt) : weight statements < sizeOf statements := by
  induction statements with
  | nil => simp
  | cons statement rest ih =>
      simp
      omega

theorem weight_block (content : Block Stmt) : weight content.statements < sizeOf content := by
  rcases content with ⟨span, statements⟩
  have bound := weight_list statements
  simp
  omega

theorem weight_optionBlock (content : Option (Block Stmt)) :
    weight (content.toList.flatMap fun last => last.statements) < sizeOf content := by
  cases content with
  | none => simp
  | some content =>
      have bound := weight_block content
      simp
      omega

theorem weight_body (body : Body Stmt) : weight body.statements < sizeOf body := by
  cases body with
  | single statement => simp [Body.statements]
  | colon span statements =>
      have bound := weight_list statements
      simp [Body.statements]
      omega

theorem weight_elseIfs (elseIfs : List (ElseIf Expr Stmt)) :
    weight (elseIfs.flatMap fun clause => clause.body.statements) < sizeOf elseIfs := by
  induction elseIfs with
  | nil => simp
  | cons clause rest ih =>
      rcases clause with ⟨span, condition, body⟩
      have bound := weight_body body
      simp at ih ⊢
      omega

theorem weight_else (otherwise : Option (Else Stmt)) :
    weight (otherwise.toList.flatMap fun clause => clause.body.statements) <
      sizeOf otherwise := by
  cases otherwise with
  | none => simp
  | some clause =>
      rcases clause with ⟨span, body⟩
      have bound := weight_body body
      simp
      omega

theorem weight_cases (cases : List (SwitchCase Expr Stmt)) :
    weight (cases.flatMap SwitchCase.statements) < sizeOf cases := by
  induction cases with
  | nil => simp
  | cons clause rest ih =>
      rcases clause with ⟨span, condition, statements⟩
      have bound := weight_list statements
      simp at ih ⊢
      omega

theorem weight_catches (catches : List (Catch Stmt)) :
    weight (catches.flatMap fun clause => clause.block.statements) < sizeOf catches := by
  induction catches with
  | nil => simp
  | cons clause rest ih =>
      rcases clause with ⟨span, types, binding, content⟩
      have bound := weight_block content
      simp at ih ⊢
      omega

theorem weight_methods (members : List (Member Expr Stmt)) :
    weight (methodStatements members) < sizeOf members := by
  induction members with
  | nil => simp [methodStatements]
  | cons member rest ih =>
      rcases member with ⟨⟨_, _, _, _, _, _ | body, _⟩⟩ | _ | _ | _ | _
      case method.some =>
        have bound := weight_block body
        simp [methodStatements] at ih ⊢
        omega
      all_goals
        simp [methodStatements] at ih ⊢
        omega

theorem weight_children (statement : Stmt) : weight statement.children < sizeOf statement := by
  cases statement with
  | block content =>
      have bound := weight_block content
      simp [children]
      omega
  | ifElse span condition body elseIfs otherwise =>
      have bodyBound := weight_body body
      have elseIfsBound := weight_elseIfs elseIfs
      have elseBound := weight_else otherwise
      simp [children]
      omega
  | whileLoop span condition body | forLoop span first second third body
  | foreachLoop span subject key value body byRef =>
      have bound := weight_body body
      simp [children]
      omega
  | switch span subject cases =>
      have bound := weight_cases cases
      simp [children]
      omega
  | tryCatch span content catches finallyBlock =>
      have blockBound := weight_block content
      have catchesBound := weight_catches catches
      have finallyBound := weight_optionBlock finallyBlock
      simp [children]
      omega
  | package span label statements braced =>
      have bound := weight_list statements
      simp [children]
      omega
  | declare span directives body =>
      have bound := weight_optionBlock body
      simp [children]
      omega
  | declaration content =>
      rcases content with ⟨span, label, kind, members⟩
      have bound := weight_methods members
      simp [children]
      omega
  | _ => simp [children] <;> omega

def flattenStack : List Stmt → List Stmt
  | [] => []
  | statement :: rest => statement :: flattenStack (statement.children ++ rest)
termination_by stack => weight stack
decreasing_by
  have smaller := weight_children statement
  simp
  omega

def flatten (statement : Stmt) : List Stmt := flattenStack [statement]

/-- The expressions of a statement itself, as opposed to those of the statements inside it. -/
def ownExpressions : Stmt → List Expr
  | expression _ value => [value]
  | returnValue _ value => value.toList
  | echo _ values => values
  | ifElse _ condition _ elseIfs _ => condition :: elseIfs.map ElseIf.condition
  | whileLoop _ condition _ | doWhile _ _ condition => [condition]
  | forLoop _ initializers conditions steps _ => initializers ++ conditions ++ steps
  | foreachLoop _ subject _ _ _ _ => [subject]
  | switch _ subject cases => subject :: cases.filterMap SwitchCase.condition
  | _ => []

end Stmt

end PhpAudit
