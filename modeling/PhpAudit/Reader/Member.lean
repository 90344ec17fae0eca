import PhpAudit.Reader.Nested

/-!
Readers for the members of classes, interfaces, traits and enums, and for the parts that
functions share with methods: blocks and parameter lists.
-/

namespace PhpAudit

namespace Reader

def statementList (nested : Nested) : Reader (List Stmt) := do
  let groups ← many nested.limit do
    let statements ← nested.statement
    skip
    return statements
  return groups.flatten

def block (nested : Nested) : Reader (Block Stmt) := do
  let span ← here
  mark "\x7b"
  skip
  let statements ← statementList nested
  mark "\x7d"
  return ⟨span, statements⟩

/-- An initial value after an equals sign, perhaps absent. -/
def initialValue (nested : Nested) : Reader (Option Expr) := perhaps do
  skip
  mark "="
  skip
  nested.expression

/-! Parameters -/

def parameter (nested : Nested) : Reader (Parameter Expr) := do
  let span ← here
  attributes nested.limit
  let modifiers ← many nested.limit do
    let modifier ← lexeme Lexeme.parameterModifier
    skip
    return lowerWord modifier
  let hint ← perhaps (leadingHint nested)
  let byRef ← byRef
  let variadic ← given do
    mark "..."
    skip
  let name ← dollarName
  let initial ← initialValue nested
  return { span, name, hint, initial, modifiers, byRef, variadic }

def parameterList (nested : Nested) : Reader (List (Parameter Expr)) := do
  mark "("
  skip
  let parameters ← trailingCommaList nested.limit (parameter nested)
  skip
  mark ")"
  return parameters

/-! Members -/

def memberModifiers (nested : Nested) : Reader (List String) :=
  many nested.limit do
    let modifier ← lexeme Lexeme.memberModifier
    skip
    return lowerWord modifier

def traitUse (nested : Nested) : Reader (Member Expr Stmt) := do
  let span ← here
  keyword "use"
  skip
  let names ← nameList nested.limit
  skip
  token Lexeme.traitAdaptations <|> terminator
  return .traits span names

def enumCase (nested : Nested) : Reader (Member Expr Stmt) := do
  let span ← here
  keyword "case"
  skip
  let name ← memberName
  let value ← initialValue nested
  skip
  terminator
  return .enumCase span name value

def constantEntry (nested : Nested) : Reader (ConstantEntry Expr) := do
  let span ← here
  let name ← memberName
  skip
  mark "="
  skip
  let value ← nested.expression
  return ⟨span, name, value⟩

def classConstant (nested : Nested) : Reader (Member Expr Stmt) := do
  let span ← here
  let modifiers ← memberModifiers nested
  keyword "const"
  skip
  let hint ← perhaps do
    let hint ← leadingHint nested
    ahead do
      discard memberName
      skip
      mark "="
    return hint
  let entries ← commaList nested.limit (constantEntry nested)
  skip
  terminator
  return .constant span modifiers hint entries

def method (nested : Nested) : Reader (Member Expr Stmt) := do
  let span ← here
  let modifiers ← memberModifiers nested
  keyword "function"
  skip
  let byRef ← byRef
  let name ← memberName
  skip
  let parameters ← parameterList nested
  skip
  let returnHint ← perhaps (returnHint nested)
  let body ← (some <$> block nested) <|> (do terminator; return none)
  return .method { span, name, modifiers, parameters, returnHint, body, byRef }

def variableEntry (nested : Nested) : Reader (VariableEntry Expr) := do
  let span ← here
  let name ← dollarName
  let initial ← initialValue nested
  return ⟨span, name, initial⟩

/-- A property needs a modifier; the word `var` counts as one but is not kept among them. -/
def property (nested : Nested) : Reader (Member Expr Stmt) := do
  let span ← here
  let modifiers ← memberModifiers nested
  if modifiers.isEmpty then failure
  let hint ← perhaps (leadingHint nested)
  let entries ← commaList nested.limit (variableEntry nested)
  skip
  terminator
  return .property span (modifiers.filter (· != "var")) hint entries (modifiers.contains "var")

def member (nested : Nested) : Reader (Member Expr Stmt) := do
  attributes nested.limit
  traitUse nested <|> enumCase nested <|> classConstant nested <|> method nested <|>
    property nested

def classBody (nested : Nested) : Reader (List (Member Expr Stmt)) := do
  mark "\x7b"
  skip
  let members ← many nested.limit do
    let member ← member nested
    skip
    return member
  mark "\x7d"
  return members

def extendsClause : Reader String := do
  keyword "extends"
  skip
  let parent ← neededName
  skip
  return parent.value

/-- A list of names after a word; empty without the word. -/
def namesAfter (word : String) (nested : Nested) : Reader (List String) := do
  let names ← perhaps do
    keyword word
    skip
    let names ← nameList nested.limit
    skip
    return names
  return names.getD []

end Reader

end PhpAudit
