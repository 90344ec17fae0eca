/-!
Operators of expressions. Binary operators carry the precedence and associativity by
which a flat chain of operands is folded into a tree.
-/

namespace PhpAudit

inductive BinaryOperator where
  | logicalOr | logicalXor | logicalAnd
  | coalesce
  | or | and
  | bitOr | bitXor | bitAnd
  | equal | notEqual | identical | notIdentical | different | compare
  | less | lessEqual | greater | greaterEqual
  | concat
  | shiftLeft | shiftRight
  | add | subtract
  | multiply | divide | remainder
  | instanceOf
  | power
deriving DecidableEq, Inhabited

namespace BinaryOperator

def symbol : BinaryOperator → String
  | logicalOr => "or"
  | logicalXor => "xor"
  | logicalAnd => "and"
  | coalesce => "??"
  | or => "||"
  | and => "&&"
  | bitOr => "|"
  | bitXor => "^"
  | bitAnd => "&"
  | equal => "=="
  | notEqual => "!="
  | identical => "==="
  | notIdentical => "!=="
  | different => "<>"
  | compare => "<=>"
  | less => "<"
  | lessEqual => "<="
  | greater => ">"
  | greaterEqual => ">="
  | concat => "."
  | shiftLeft => "<<"
  | shiftRight => ">>"
  | add => "+"
  | subtract => "-"
  | multiply => "*"
  | divide => "/"
  | remainder => "%"
  | instanceOf => "instanceof"
  | power => "**"

/-- A higher precedence binds tighter. -/
def precedence : BinaryOperator → Nat
  | logicalOr => 1
  | logicalXor => 2
  | logicalAnd => 3
  | coalesce => 7
  | or => 8
  | and => 9
  | bitOr => 10
  | bitXor => 11
  | bitAnd => 12
  | equal | notEqual | identical | notIdentical | different | compare => 13
  | less | lessEqual | greater | greaterEqual => 14
  | concat => 15
  | shiftLeft | shiftRight => 16
  | add | subtract => 17
  | multiply | divide | remainder => 18
  | instanceOf => 20
  | power => 21

def rightAssociative : BinaryOperator → Bool
  | coalesce | power => true
  | _ => false

end BinaryOperator

/-- A cast and a file inclusion keep the lower-cased words they were written with. -/
inductive UnaryOperator where
  | increment | decrement | not | complement | silence | minus | plus
  | clone | print | throw
  | load (word : String)
  | cast (word : String)
deriving DecidableEq, Inhabited

namespace UnaryOperator

def symbol : UnaryOperator → String
  | increment => "++"
  | decrement => "--"
  | not => "!"
  | complement => "~"
  | silence => "@"
  | minus => "-"
  | plus => "+"
  | clone => "clone"
  | print => "print"
  | throw => "throw"
  | load word => word
  | cast word => word

end UnaryOperator

inductive AssignOperator where
  | assign
  | power | coalesce | shiftLeft | shiftRight | concat | add | subtract
  | multiply | divide | remainder | bitAnd | bitOr | bitXor
deriving DecidableEq, Inhabited

namespace AssignOperator

def symbol : AssignOperator → String
  | assign => "="
  | power => "**="
  | coalesce => "??="
  | shiftLeft => "<<="
  | shiftRight => ">>="
  | concat => ".="
  | add => "+="
  | subtract => "-="
  | multiply => "*="
  | divide => "/="
  | remainder => "%="
  | bitAnd => "&="
  | bitOr => "|="
  | bitXor => "^="

end AssignOperator

end PhpAudit
