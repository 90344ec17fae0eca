import PhpAudit.Reader.Member
import PhpAudit.Tree.Fold

/-!
Readers for expressions, from primary expressions up to the low logical operators. Chains of
accesses and of binary operators are read flat and folded into trees afterwards.
-/

namespace PhpAudit

namespace Reader

/-! Arguments -/

/-- The three dots of a callable made from a function name. -/
def placeholder : Reader (Argument Expr) := do
  let span ← here
  mark "..."
  skip
  ahead (mark ")")
  return ⟨span, .placeholder span, none, false⟩

def spreadArgument (nested : Nested) : Reader (Argument Expr) := do
  let span ← here
  mark "..."
  skip
  let value ← nested.expression
  return ⟨span, value, none, true⟩

def namedArgument (nested : Nested) : Reader (Argument Expr) := do
  let name ← memberName
  skip
  token Lexeme.colon
  skip
  let value ← nested.expression
  return ⟨name.span, value, some name.value, false⟩

def plainArgument (nested : Nested) : Reader (Argument Expr) := do
  let value ← nested.expression
  return ⟨value.span, value, none, false⟩

def argument (nested : Nested) : Reader (Argument Expr) :=
  placeholder <|> spreadArgument nested <|> namedArgument nested <|> plainArgument nested

def arguments (nested : Nested) : Reader (List (Argument Expr)) := do
  mark "("
  skip
  let arguments ← trailingCommaList nested.limit (argument nested)
  skip
  mark ")"
  return arguments

/-! Accesses -/

/-- An expression in braces, with the text it was written as. -/
def braced (nested : Nested) : Reader (Expr × String) := do
  let start ← cursor
  mark "\x7b"
  skip
  let inner ← nested.expression
  skip
  mark "\x7d"
  return (inner, start.textUntil (← cursor))

/-- What stands after an arrow, as it was written. -/
def selector (nested : Nested) : Reader String :=
  lexeme Lexeme.identifier <|> dollarName <|> Prod.snd <$> braced nested

/-- After a double colon a variable, also one in braces, names a property and all else a
constant. -/
def staticSelector (nested : Nested) : Reader Access :=
  (.staticProperty <$> dollarName) <|> (.classConstant <$> lexeme Lexeme.identifier) <|> do
    let (inner, text) ← braced nested
    return match inner with
      | .var _ _ => .staticProperty text
      | _ => .classConstant text

def memberAccess (nested : Nested) : Reader Access := do
  mark "->"
  skip
  return .member (← selector nested)

def nullsafeAccess (nested : Nested) : Reader Access := do
  mark "?->"
  skip
  return .nullsafeMember (← selector nested)

def staticAccess (nested : Nested) : Reader Access := do
  mark "::"
  skip
  staticSelector nested

def elementAccess (nested : Nested) : Reader Access := do
  mark "["
  skip
  let index ← perhaps nested.expression
  skip
  mark "]"
  return .element index

def access (nested : Nested) : Reader Access := do
  skip
  memberAccess nested <|> nullsafeAccess nested <|> staticAccess nested <|>
    elementAccess nested <|> (.call <$> arguments nested) <|>
    (do mark "++"; return .increment) <|> (do mark "--"; return .decrement)

/-! Primary expressions -/

def parenthesized (nested : Nested) : Reader Expr := do
  let span ← here
  mark "("
  skip
  let inner ← nested.expression
  skip
  mark ")"
  return .parenthesized span inner

def staticMark : Reader Bool := given do
  keyword "static"
  skip

def closureUse : Reader ClosureUse := do
  let span ← here
  let byRef ← byRef
  let name ← dollarName
  return ⟨span, name, byRef⟩

def closureUses (nested : Nested) : Reader (List ClosureUse) := do
  keyword "use"
  skip
  mark "("
  skip
  let uses ← commaList nested.limit closureUse
  skip
  discard (perhaps (mark ","))
  skip
  mark ")"
  skip
  return uses

def closure (nested : Nested) : Reader Expr := do
  let span ← here
  let static ← staticMark
  keyword "function"
  skip
  let byRef ← byRef
  let parameters ← parameterList nested
  skip
  let uses ← perhaps (closureUses nested)
  let returnHint ← perhaps (returnHint nested)
  let body ← block nested
  return .closure span parameters (uses.getD []) returnHint body static byRef

def arrowFunction (nested : Nested) : Reader Expr := do
  let span ← here
  let static ← staticMark
  keyword "fn"
  skip
  let byRef ← byRef
  let parameters ← parameterList nested
  skip
  let returnHint ← perhaps (returnHint nested)
  mark "=>"
  skip
  let result ← nested.ternary
  return .arrowFunction span parameters returnHint result static byRef

/-- An anonymous class with the arguments of its constructor. -/
def anonymousClass (nested : Nested) : Reader (Expr × List (Argument Expr)) := do
  let span ← here
  attributes nested.limit
  keyword "class"
  skip
  let arguments ← perhaps (arguments nested)
  skip
  let parent ← perhaps extendsClause
  let interfaces ← namesAfter "implements" nested
  let members ← classBody nested
  return (.anonymousClass span parent interfaces members, arguments.getD [])

/-- A name, or a word for a literal. -/
def nameOrLiteral : Reader Expr := do
  let span ← here
  let text ← lexeme Lexeme.name
  let lowered := lowerAscii text
  return if lowered == "true" || lowered == "false" then .literal span .bool text
    else if lowered == "null" then .literal span .null text
    else .name span text

def plainVariable : Reader Expr := do
  let span ← here
  return .var span (← dollarName)

def classStep : Reader Access := do
  skip
  (do mark "->"; skip; return .member (← dollarName <|> lexeme Lexeme.identifier)) <|> do
    mark "::"
    skip
    (.staticProperty <$> dollarName) <|> (.classConstant <$> lexeme Lexeme.identifier)

/-- A class given by a variable and accesses to its members. -/
def dynamicClass (nested : Nested) : Reader Expr := do
  let base ← plainVariable
  return base.accessAll (← many nested.limit classStep)

/-- The arguments of an anonymous class are those before its body; a list after the body is
read and dropped. -/
def newExpression (nested : Nested) : Reader Expr := do
  let span ← here
  keyword "new"
  skip
  let trailing : Reader (Option (List (Argument Expr))) := perhaps do
    skip
    arguments nested
  (do
    let (target, arguments) ← anonymousClass nested
    discard trailing
    return .new span target arguments) <|> do
      let target ← parenthesized nested <|> dynamicClass nested <|> nameOrLiteral
      let arguments ← trailing
      return .new span target (arguments.getD [])

def matchArm (nested : Nested) : Reader (MatchArm Expr) := do
  let span ← here
  let conditions ← (do keyword "default"; return []) <|> commaList nested.limit nested.expression
  skip
  mark "=>"
  skip
  let result ← nested.expression
  return ⟨span, conditions, result⟩

def matchExpression (nested : Nested) : Reader Expr := do
  let span ← here
  token (Lexeme.keywordCall "match")
  skip
  mark "("
  skip
  let subject ← nested.expression
  skip
  mark ")"
  skip
  mark "\x7b"
  skip
  let arms ← trailingCommaList nested.limit (matchArm nested)
  skip
  mark "\x7d"
  return .matching span subject arms

/-! Arrays -/

def spreadItem (nested : Nested) : Reader (ArrayItem Expr) := do
  let span ← here
  mark "..."
  skip
  let value ← nested.expression
  return ⟨span, none, value, false, true⟩

/-- A value, or a key with its value after a double arrow. -/
def plainItem (nested : Nested) : Reader (ArrayItem Expr) := do
  let span ← here
  let first ← nested.expression
  (do
    skip
    mark "=>"
    skip
    let byRef ← byRef
    let value ← nested.expression
    return ⟨span, some first, value, byRef, false⟩) <|> return ⟨span, none, first, false, false⟩

def referenceItem (nested : Nested) : Reader (ArrayItem Expr) := do
  let span ← here
  mark "&"
  skip
  let value ← nested.expression
  return ⟨span, none, value, true, false⟩

def arrayItem (nested : Nested) : Reader (ArrayItem Expr) :=
  spreadItem nested <|> plainItem nested <|> referenceItem nested

/-- One place of an array before a comma, which may be empty; the last place has no comma and
ends the list. -/
def arrayItemsFrom (nested : Nested) : Nat → Reader (List (ArrayItem Expr))
  | 0 => return []
  | limit + 1 => do
      let item ← perhaps (arrayItem nested)
      let more ← perhaps do
        skip
        mark ","
        skip
      let rest ← if more.isSome then arrayItemsFrom nested limit else pure []
      return item.toList ++ rest

def arrayItems (nested : Nested) : Reader (List (ArrayItem Expr)) :=
  arrayItemsFrom nested (nested.limit + 1)

def shortArray (nested : Nested) : Reader Expr := do
  let span ← here
  mark "["
  skip
  let items ← arrayItems nested
  skip
  mark "]"
  return .array span items .short

def wordArray (word : String) (form : ArrayForm) (nested : Nested) : Reader Expr := do
  let span ← here
  token (Lexeme.keywordCall word)
  skip
  mark "("
  skip
  let items ← arrayItems nested
  skip
  mark ")"
  return .array span items form

/-! Literals and variables -/

def stringLiteral : Reader Expr := do
  let span ← here
  return .literal span .string (← lexeme Lexeme.heredoc <|> lexeme Lexeme.string)

/-- A numeral in base sixteen or two is an integer; any other one is a float if it has a point
or an exponent. -/
def numberKind (text : List Char) : LiteralKind :=
  if (Lexeme.letters ['0', 'x'] text).isSome || (Lexeme.letters ['0', 'b'] text).isSome then .int
  else if text.any fun character => character == '.' || character == 'e' || character == 'E'
    then .float
  else .int

def numberLiteral : Reader Expr := do
  let span ← here
  let text ← lexeme Lexeme.number
  return .literal span (numberKind text.toList) text

def variableVariable (nested : Nested) : Reader Expr := do
  let span ← here
  mark "$"
  return .indirect span (← plainVariable <|> Prod.fst <$> braced nested)

def primary (nested : Nested) : Reader Expr :=
  parenthesized nested <|> closure nested <|> arrowFunction nested <|> newExpression nested <|>
    matchExpression nested <|> shortArray nested <|> wordArray "array" .long nested <|>
    wordArray "list" .list nested <|> stringLiteral <|> numberLiteral <|> plainVariable <|>
    variableVariable nested <|> nameOrLiteral

/-- A primary expression with the accesses after it. -/
def chain (nested : Nested) : Reader Expr := do
  let base ← primary nested
  return base.accessAll (← many nested.limit (access nested))

/-! Operators -/

def markOperators : List (String × UnaryOperator) :=
  [("++", .increment), ("--", .decrement), ("!", .not), ("~", .complement), ("@", .silence),
    ("-", .minus), ("+", .plus)]

def castOperator : Reader UnaryOperator := do
  let text ← lexeme Lexeme.cast
  return .cast (lowerWord (String.ofList (text.toList.filter fun character => !isBlank character)))

def leadingOperator : Reader UnaryOperator :=
  castOperator <|>
    markOperators.foldr (fun (text, operator) others => (do mark text; return operator) <|> others)
      (do keyword "clone"; return .clone)

def leadingOperation (nested : Nested) : Reader Expr := do
  let span ← here
  let operator ← leadingOperator
  skip
  let operand ← nested.unary
  return .unary span operator operand false

/-- A word that works as an operator on the expression after it. -/
def wordOperation (rule : Reader UnaryOperator) (nested : Nested) : Reader Expr := do
  let span ← here
  let operator ← rule
  skip
  let operand ← nested.ternary
  return .unary span operator operand false

/-- The parts of a conditional expression after its condition: both results, or only the
second one. -/
def ternaryTail (nested : Nested) : Reader (Option Expr × Expr) := do
  skip
  (do
    mark "?:"
    skip
    return (none, ← nested.binary)) <|> do
      token Lexeme.question
      skip
      let whenTrue ← nested.ternary
      skip
      token Lexeme.colon
      skip
      let whenFalse ← nested.binary
      return (some whenTrue, whenFalse)

/-- The conditional expressions that start with an expression already read. -/
def ternaryFrom (nested : Nested) (condition : Expr) : Reader Expr := do
  let tails ← many nested.limit (ternaryTail nested)
  return tails.foldl (fun result (whenTrue, whenFalse) =>
    .ternary result.span result whenTrue whenFalse) condition

def yieldFrom (nested : Nested) (span : Span) : Reader Expr := do
  skip
  keyword "from"
  skip
  let value ← nested.ternary
  return .yield span none (some value) true

def yieldValue (nested : Nested) (span : Span) : Reader Expr := do
  skip
  let first ← nested.binary
  (do
    skip
    mark "=>"
    let value ← perhaps do
      skip
      nested.ternary
    return .yield span (some first) value false) <|> do
      let value ← ternaryFrom nested first
      return .yield span none (some value) false

def yieldExpression (nested : Nested) : Reader Expr := do
  let span ← here
  keyword "yield"
  yieldFrom nested span <|> yieldValue nested span <|> return .yield span none none false

def keywordExpression (nested : Nested) : Reader Expr :=
  wordOperation (do keyword "print"; return .print) nested <|> yieldExpression nested <|>
    wordOperation (do keyword "throw"; return .throw) nested <|>
    wordOperation (do return .load (lowerWord (← lexeme Lexeme.loadKeyword))) nested

def assignOperators : List (String × AssignOperator) :=
  [("**=", .power), ("??=", .coalesce), ("<<=", .shiftLeft), (">>=", .shiftRight),
    (".=", .concat), ("+=", .add), ("-=", .subtract), ("*=", .multiply), ("/=", .divide),
    ("%=", .remainder), ("&=", .bitAnd), ("|=", .bitOr), ("^=", .bitXor)]

/-- A lone equals sign starts neither a comparison nor a double arrow. -/
def plainAssign : Lexeme :=
  Lexeme.before (Lexeme.mark ['=']) fun rest =>
    !Lexeme.startsWith (fun character => character == '=' || character == '>') rest

def assignOperator : Reader AssignOperator :=
  assignOperators.foldr (fun (text, operator) others => (do mark text; return operator) <|> others)
    (do token plainAssign; return .assign)

/-- A chain, or an assignment to it. -/
def chainOrAssignment (nested : Nested) : Reader Expr := do
  let target ← chain nested
  (do
    skip
    let operator ← assignOperator
    skip
    let byRef ← byRef
    let value ← nested.ternary
    return .assignment target.span target operator value byRef) <|> return target

def unary (nested : Nested) : Reader Expr :=
  leadingOperation nested <|> keywordExpression nested <|> chainOrAssignment nested

/-- The marks of binary operators in the order they are tried, each with the characters that
must not follow it. -/
def binaryMarks : List (String × String × BinaryOperator) :=
  [("??", "=", .coalesce), ("||", "=", .or), ("&&", "=", .and), ("===", "", .identical),
    ("!==", "", .notIdentical), ("<=>", "", .compare), ("==", "", .equal), ("!=", "", .notEqual),
    ("<>", "", .different), ("<=", "", .lessEqual), (">=", "", .greaterEqual),
    ("<<", "=<", .shiftLeft), (">>", "=", .shiftRight), ("**", "=", .power), ("<", "", .less),
    (">", "=", .greater), ("|", "|=", .bitOr), ("^", "=", .bitXor), ("&", "&=", .bitAnd),
    (".", ".=", .concat), ("+", "+=", .add), ("-", "-=>", .subtract), ("*", "*=", .multiply),
    ("/", "/=*", .divide), ("%", "=", .remainder)]

/-- The word `instanceof`. Spelled with letters that only fold to its own, it is read but has
no meaning. -/
def instanceOfWord : Reader BinaryOperator := do
  let word ← lexeme (Lexeme.keyword "instanceof")
  if lowerWord word != "instanceof" then noteMisread
  return .instanceOf

def binaryOperator : Reader BinaryOperator :=
  binaryMarks.foldr
    (fun (text, excluded, operator) others =>
      (do
        token (Lexeme.before (Lexeme.mark text.toList) fun rest =>
          !Lexeme.startsWith (fun character => excluded.toList.contains character) rest)
        return operator) <|> others)
    instanceOfWord

def binary (nested : Nested) : Reader Expr := do
  let first ← unary nested
  let rest ← many nested.limit do
    skip
    let operator ← binaryOperator
    skip
    let operand ← nested.unary
    return (operator, operand)
  return first.foldOperators rest

def ternary (nested : Nested) : Reader Expr := do
  let condition ← binary nested
  ternaryFrom nested condition

def lowOperators : List (String × BinaryOperator) :=
  [("and", .logicalAnd), ("xor", .logicalXor), ("or", .logicalOr)]

def lowOperator : Reader BinaryOperator :=
  lowOperators.foldr (fun (word, operator) others => (do keyword word; return operator) <|> others)
    failure

def expression (nested : Nested) : Reader Expr := do
  let first ← ternary nested
  let rest ← many nested.limit do
    skip
    let operator ← lowOperator
    skip
    let operand ← nested.ternary
    return (operator, operand)
  return first.foldOperators rest

end Reader

end PhpAudit
