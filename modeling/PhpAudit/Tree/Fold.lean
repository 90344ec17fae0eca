import PhpAudit.Tree.Basic

/-!
Trees from flat chains. A chain of operands with binary operators between them is folded by
precedence; a chain of accesses after an expression is folded from the left.
-/

namespace PhpAudit

namespace BinaryOperator

/-- Whether an operator already read takes its right operand before the next one does. -/
def bindsBefore (waiting next : BinaryOperator) : Bool :=
  next.precedence < waiting.precedence ||
    (waiting.precedence == next.precedence && !next.rightAssociative)

end BinaryOperator

namespace Expr

/-- A binary expression starts where its left operand does. -/
def join (left : Expr) (operator : BinaryOperator) (right : Expr) : Expr :=
  .binary left.span left operator right

/-- Joins the waiting operands whose operators bind before the next one. -/
def settle (next : BinaryOperator) : List (Expr × BinaryOperator) → Expr →
    List (Expr × BinaryOperator) × Expr
  | [], current => ([], current)
  | (left, operator) :: waiting, current =>
      if operator.bindsBefore next then settle next waiting (left.join operator current)
      else ((left, operator) :: waiting, current)

/-- Joins all waiting operands. -/
def close (waiting : List (Expr × BinaryOperator)) (current : Expr) : Expr :=
  waiting.foldl (fun right (left, operator) => left.join operator right) current

/-- Folds the rest of a chain, with the operands on the left that wait for their right one. -/
def foldFrom : List (Expr × BinaryOperator) → Expr → List (BinaryOperator × Expr) → Expr
  | waiting, current, [] => close waiting current
  | waiting, current, (operator, operand) :: rest =>
      let (waiting, current) := settle operator waiting current
      foldFrom ((current, operator) :: waiting) operand rest

/-- The tree of a chain of operands with operators between them. -/
def foldOperators (first : Expr) (rest : List (BinaryOperator × Expr)) : Expr :=
  foldFrom [] first rest

end Expr

/-- One step of a chain after an expression. -/
inductive Access where
  | member (name : String)
  | nullsafeMember (name : String)
  | staticProperty (name : String)
  | classConstant (name : String)
  | element (index : Option Expr)
  | call (arguments : List (Argument Expr))
  | increment
  | decrement

namespace Expr

/-- Calling a member is one expression with the access to it. Every access starts where the
expression before it does. -/
def access (target : Expr) : Access → Expr
  | .member selector => .property target.span target selector
  | .nullsafeMember selector => .nullsafeProperty target.span target selector
  | .staticProperty selector => .staticProperty target.span target selector
  | .classConstant selector => .classConstant target.span target selector
  | .element index => .element target.span target index
  | .increment => .unary target.span .increment target true
  | .decrement => .unary target.span .decrement target true
  | .call arguments =>
      match target with
      | .property _ object selector => .methodCall target.span object selector arguments
      | .nullsafeProperty _ object selector => .nullsafeMethodCall target.span object selector arguments
      | .classConstant _ owner selector => .staticMethodCall target.span owner selector arguments
      | .staticProperty _ owner selector => .staticMethodCall target.span owner selector arguments
      | _ => .call target.span target arguments

def accessAll (target : Expr) (steps : List Access) : Expr := steps.foldl access target

end Expr

end PhpAudit
