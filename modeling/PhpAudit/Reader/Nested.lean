import PhpAudit.Reader.Cursor

/-!
The rules of the grammar contain each other. Each of them is written against the readers of
the parts nested inside it, which it only calls after taking at least one character.
-/

namespace PhpAudit

structure Nested where
  /-- A bound on repetitions. -/
  limit : Nat
  hint : Reader Hint
  unary : Reader Expr
  binary : Reader Expr
  ternary : Reader Expr
  expression : Reader Expr
  statement : Reader (List Stmt)

/-- The readers that take what the cursor already holds. -/
def Nested.held (limit : Nat) : Nested where
  limit
  hint := Reader.part Parts.hint
  unary := Reader.part Parts.unary
  binary := Reader.part Parts.binary
  ternary := Reader.part Parts.ternary
  expression := Reader.part Parts.expression
  statement := Reader.part Parts.statement

namespace Reader

/-- The end of a statement: a semicolon, or a closing tag ahead. -/
def terminator : Reader Unit := mark ";" <|> ahead (mark "?>")

/-! Names -/

def isLiteralWord (word : String) : Bool :=
  ["true", "false", "null"].contains (lowerAscii word)

/-- A name where a declaration needs one. A word for a literal is taken as well, but has no
meaning there. -/
def neededName : Reader Identifier := do
  let span ← here
  let value ← lexeme Lexeme.name
  if isLiteralWord value then noteMisread
  return ⟨span, value⟩

/-- A name in a list of names, from which the words for literals are left out. -/
def listedName : Reader (Option String) := do
  let value ← lexeme Lexeme.name
  return if isLiteralWord value then none else some value

def nameList (limit : Nat) : Reader (List String) := do
  return (← commaList limit listedName).filterMap id

/-- A name where reserved words are allowed. -/
def memberName : Reader Identifier := do
  let span ← here
  return ⟨span, ← lexeme Lexeme.identifier⟩

def dollarName : Reader String := lexeme Lexeme.dollarName

def byRef : Reader Bool := given do
  mark "&"
  skip

def attributes (limit : Nat) : Reader Unit :=
  discard (many limit do
    token Lexeme.attributeGroup
    skip)

/-! Type hints -/

def keywordTypes : List String := ["self", "static", "parent"]

def builtinTypes : List String :=
  ["array", "bool", "callable", "false", "float", "int", "iterable", "mixed", "never", "null",
    "object", "string", "true", "void"]

def hintName : Reader Hint := do
  let span ← here
  let text ← lexeme Lexeme.qualified
  let lowered := lowerAscii text
  return if keywordTypes.contains lowered then .keyword span lowered
    else if builtinTypes.contains lowered then .builtin span lowered
    else .named span text

def hintAtom (nested : Nested) : Reader Hint := group <|> hintName
where
  group : Reader Hint := do
    mark "("
    skip
    let inner ← nested.hint
    skip
    mark ")"
    return inner

def nullableHint (nested : Nested) : Reader Hint := do
  let span ← here
  mark "?"
  skip
  return .nullable span (← hintAtom nested)

/-- An ampersand between hints is one that no variable follows. -/
def joinedHint (nested : Nested) : Reader Hint := do
  let span ← here
  let first ← hintAtom nested
  let alternatives ← many nested.limit do
    skip
    mark "|"
    skip
    hintAtom nested
  if !alternatives.isEmpty then return .union span (first :: alternatives)
  let parts ← many nested.limit do
    skip
    mark "&"
    absent do
      skip
      mark "$" <|> mark "..."
    skip
    hintAtom nested
  return if parts.isEmpty then first else .intersection span (first :: parts)

def hint (nested : Nested) : Reader Hint := nullableHint nested <|> joinedHint nested

def returnHint (nested : Nested) : Reader Hint := do
  mark ":"
  skip
  let result ← hint nested
  skip
  return result

/-- A hint before a variable. -/
def leadingHint (nested : Nested) : Reader Hint := do
  let result ← hint nested
  skip
  return result

end Reader

end PhpAudit
