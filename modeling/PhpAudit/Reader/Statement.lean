import PhpAudit.Reader.Expression

/-!
Readers for statements and declarations. A statement gives a list, because a closing tag
brings with it the text outside the tags and the next opening tag.
-/

namespace PhpAudit

namespace Reader

/-! Tags -/

def inlineHtml : Reader Stmt := do
  let span ← here
  return .inlineHtml span (← lexeme Lexeme.inlineHtml)

def openingTag : Reader Stmt := do
  let span ← here
  return .openingTag span (lowerAscii (← lexeme Lexeme.openingTag))

def closingTag : Reader (List Stmt) := do
  let span ← here
  mark "?>"
  let html ← perhaps inlineHtml
  let tag ← perhaps openingTag
  return .closingTag span :: html.toList ++ tag.toList

/-! Bodies -/

/-- One statement stands for itself; a closing tag with what follows it is put into a block
that starts at the given place. -/
def asStatement (span : Span) : List Stmt → Stmt
  | [statement] => statement
  | statements => .block ⟨span, statements⟩

def condition (nested : Nested) : Reader Expr := do
  mark "("
  skip
  let condition ← expression nested
  skip
  mark ")"
  return condition

/-- Statements between a colon and an end word. -/
def colonBody (word : String) (nested : Nested) : Reader (Body Stmt) := do
  let span ← here
  mark ":"
  skip
  let statements ← statementList nested
  keyword word
  skip
  terminator
  return .colon span statements

/-- The body of a loop that starts at the given place. -/
def loopBody (word : String) (span : Span) (nested : Nested) : Reader (Body Stmt) :=
  colonBody word nested <|> do
    return .single (asStatement span (← nested.statement))

/-! Conditional statements -/

def elseIfClause (nested : Nested) : Reader (ElseIf Expr Stmt) := do
  skip
  let span ← here
  keyword "elseif"
  skip
  let condition ← condition nested
  skip
  let statements ← nested.statement
  return ⟨span, condition, .single (asStatement span statements)⟩

def elseClause (nested : Nested) : Reader (Else Stmt) := do
  skip
  let span ← here
  keyword "else"
  skip
  let statements ← nested.statement
  return ⟨span, .single (asStatement span statements)⟩

def elseIfColonClause (nested : Nested) : Reader (ElseIf Expr Stmt) := do
  let span ← here
  keyword "elseif"
  skip
  let condition ← condition nested
  skip
  let colon ← here
  mark ":"
  skip
  let statements ← statementList nested
  return ⟨span, condition, .colon colon statements⟩

def elseColonClause (nested : Nested) : Reader (Else Stmt) := do
  let span ← here
  keyword "else"
  skip
  let colon ← here
  mark ":"
  skip
  let statements ← statementList nested
  return ⟨span, .colon colon statements⟩

def ifColon (nested : Nested) (span : Span) (condition : Expr) : Reader Stmt := do
  let colon ← here
  mark ":"
  skip
  let statements ← statementList nested
  let elseIfs ← many nested.limit (elseIfColonClause nested)
  let otherwise ← perhaps (elseColonClause nested)
  keyword "endif"
  skip
  terminator
  return .ifElse span condition (.colon colon statements) elseIfs otherwise

def ifPlain (nested : Nested) (span : Span) (condition : Expr) : Reader Stmt := do
  let start ← here
  let statements ← nested.statement
  let elseIfs ← many nested.limit (elseIfClause nested)
  let otherwise ← perhaps (elseClause nested)
  return .ifElse span condition (.single (asStatement start statements)) elseIfs otherwise

def ifStatement (nested : Nested) : Reader Stmt := do
  let span ← here
  keyword "if"
  skip
  let condition ← condition nested
  skip
  ifColon nested span condition <|> ifPlain nested span condition

def switchCase (nested : Nested) : Reader (SwitchCase Expr Stmt) := do
  let span ← here
  let condition ← (do keyword "case"; skip; some <$> expression nested) <|>
    (do keyword "default"; return none)
  skip
  mark ":" <|> mark ";"
  skip
  let statements ← statementList nested
  return ⟨span, condition, statements⟩

def switchCases (nested : Nested) : Reader (List (SwitchCase Expr Stmt)) := do
  skip
  discard (perhaps do
    mark ";"
    skip)
  many nested.limit (switchCase nested)

def switchStatement (nested : Nested) : Reader Stmt := do
  let span ← here
  keyword "switch"
  skip
  let subject ← condition nested
  skip
  let cases ← (do
    mark "\x7b"
    let cases ← switchCases nested
    mark "\x7d"
    return cases) <|> do
      mark ":"
      let cases ← switchCases nested
      keyword "endswitch"
      skip
      terminator
      return cases
  return .switch span subject cases

/-! Loops -/

def whileStatement (nested : Nested) : Reader Stmt := do
  let span ← here
  keyword "while"
  skip
  let condition ← condition nested
  skip
  let body ← loopBody "endwhile" span nested
  return .whileLoop span condition body

def doWhileStatement (nested : Nested) : Reader Stmt := do
  let span ← here
  keyword "do"
  skip
  let statements ← nested.statement
  skip
  keyword "while"
  skip
  let condition ← condition nested
  skip
  terminator
  return .doWhile span (asStatement span statements) condition

def forExpressions (nested : Nested) : Reader (List Expr) := do
  let expressions ← perhaps (commaList nested.limit (expression nested))
  return expressions.getD []

def forStatement (nested : Nested) : Reader Stmt := do
  let span ← here
  keyword "for"
  skip
  mark "("
  skip
  let initializers ← forExpressions nested
  skip
  mark ";"
  skip
  let conditions ← forExpressions nested
  skip
  mark ";"
  skip
  let steps ← forExpressions nested
  skip
  mark ")"
  skip
  let body ← loopBody "endfor" span nested
  return .forLoop span initializers conditions steps body

/-- The key of a loop if there is one, whether the loop is by reference, and its target. -/
def foreachTarget (nested : Nested) : Reader (Option Expr × Bool × Expr) := do
  match ← perhaps (chain nested) with
  | none =>
      let byRef ← byRef
      return (none, byRef, ← chain nested)
  | some first =>
      let arrow ← given do
        skip
        mark "=>"
        skip
      if arrow then
        let byRef ← byRef
        return (some first, byRef, ← chain nested)
      else return (none, false, first)

def foreachStatement (nested : Nested) : Reader Stmt := do
  let span ← here
  keyword "foreach"
  skip
  mark "("
  skip
  let subject ← expression nested
  skip
  keyword "as"
  skip
  let (key, byRef, target) ← foreachTarget nested
  skip
  mark ")"
  skip
  let body ← loopBody "endforeach" span nested
  return .foreachLoop span subject key byRef body target

/-! Exceptions -/

def catchClause (nested : Nested) : Reader (Catch Stmt) := do
  skip
  let span ← here
  keyword "catch"
  skip
  mark "("
  skip
  let first ← listedName
  let others ← many nested.limit do
    skip
    mark "|"
    skip
    listedName
  skip
  let binding ← perhaps dollarName
  skip
  mark ")"
  skip
  let block ← block nested
  return ⟨span, (first :: others).filterMap id, binding, block⟩

def finallyClause (nested : Nested) : Reader (Block Stmt) := do
  skip
  keyword "finally"
  skip
  block nested

def tryStatement (nested : Nested) : Reader Stmt := do
  let span ← here
  keyword "try"
  skip
  let block ← block nested
  let catches ← many nested.limit (catchClause nested)
  let finallyBlock ← perhaps (finallyClause nested)
  return .tryCatch span block catches finallyBlock

/-! Simple statements -/

/-- A word with an optional expression after it. -/
def wordStatement (word : String) (build : Span → Option Expr → Stmt) (nested : Nested) :
    Reader Stmt := do
  let span ← here
  keyword word
  let value ← perhaps do
    skip
    expression nested
  skip
  terminator
  return build span value

def echoStatement (nested : Nested) : Reader Stmt := do
  let span ← here
  keyword "echo"
  skip
  let values ← commaList nested.limit (expression nested)
  skip
  terminator
  return .echo span values

def globalStatement (nested : Nested) : Reader Stmt := do
  let span ← here
  keyword "global"
  skip
  let names ← commaList nested.limit dollarName
  skip
  terminator
  return .globals span names

def staticStatement (nested : Nested) : Reader Stmt := do
  let span ← here
  keyword "static"
  skip
  let entries ← commaList nested.limit (variableEntry nested)
  skip
  terminator
  return .statics span entries

def constStatement (nested : Nested) : Reader Stmt := do
  let span ← here
  keyword "const"
  skip
  let entries ← commaList nested.limit (constantEntry nested)
  skip
  terminator
  return .constants span entries

def declareStatement (nested : Nested) : Reader Stmt := do
  let span ← here
  keyword "declare"
  skip
  mark "("
  skip
  let directives ← commaList nested.limit (constantEntry nested)
  skip
  mark ")"
  skip
  let body ← (some <$> block nested) <|> (do terminator; return none)
  return .declare span directives body

def noopStatement : Reader Stmt := do
  let span ← here
  mark ";"
  return .noop span

def expressionStatement (nested : Nested) : Reader Stmt := do
  let span ← here
  let value ← expression nested
  skip
  terminator
  return .expression span value

/-! Namespaces and imports -/

def bracedNamespace (nested : Nested) : Reader Stmt := do
  let span ← here
  token Lexeme.namespaceKeyword
  skip
  let name ← perhaps do
    let name ← listedName
    skip
    return name
  mark "\x7b"
  skip
  let statements ← statementList nested
  mark "\x7d"
  return .package span name.join statements true

/-- The beginning of a namespace, which ends an unbraced one before it. -/
def namespaceStart : Reader Unit := do
  token Lexeme.namespaceKeyword
  skip
  discard (perhaps do
    token Lexeme.name
    skip)
  mark ";" <|> mark "\x7b"

def unbracedNamespace (nested : Nested) : Reader Stmt := do
  let span ← here
  token Lexeme.namespaceKeyword
  skip
  let name ← neededName
  skip
  terminator
  skip
  let groups ← many nested.limit do
    absent namespaceStart
    let statements ← nested.statement
    skip
    return statements
  return .package span (some name.value) groups.flatten false

def useKind : Reader String := do
  let word ← lexeme (Lexeme.keyword "function") <|> lexeme (Lexeme.keyword "const")
  skip
  return lowerWord word

def useItem : Reader UseItem := do
  let span ← here
  discard (perhaps useKind)
  let name ← neededName
  let localName ← perhaps do
    skip
    keyword "as"
    skip
    return (← memberName).value
  return ⟨span, name.value, localName⟩

/-- Items in braces after a common start of their names. -/
def useGroup (nested : Nested) : Reader (List UseItem) := do
  let start ← neededName
  mark "\\"
  mark "\x7b"
  skip
  let items ← commaList nested.limit useItem
  skip
  discard (perhaps (mark ","))
  skip
  mark "\x7d"
  return items.map fun item => { item with name := start.value ++ "\\" ++ item.name }

def useStatement (nested : Nested) : Reader Stmt := do
  let span ← here
  keyword "use"
  skip
  let kind ← perhaps useKind
  let groups ← commaList nested.limit (useGroup nested <|> (do return [← useItem]))
  skip
  terminator
  return .imports span (kind.getD "class") groups.flatten

/-! Declarations -/

def functionDeclaration (nested : Nested) : Reader Stmt := do
  let span ← here
  attributes nested.limit
  keyword "function"
  skip
  let byRef ← byRef
  let name ← neededName
  skip
  let parameters ← parameterList nested
  skip
  let returnHint ← perhaps (returnHint nested)
  let body ← block nested
  return .function span name parameters returnHint body byRef

def classDeclaration (nested : Nested) : Reader Stmt := do
  let span ← here
  attributes nested.limit
  let modifiers ← many nested.limit do
    let modifier ← lexeme Lexeme.classModifier
    skip
    return lowerWord modifier
  keyword "class"
  skip
  let name ← neededName
  skip
  let parent ← perhaps extendsClause
  let interfaces ← namesAfter "implements" nested
  let members ← classBody nested
  return .declaration ⟨span, name, .classType modifiers parent interfaces, members⟩

def interfaceDeclaration (nested : Nested) : Reader Stmt := do
  let span ← here
  attributes nested.limit
  keyword "interface"
  skip
  let name ← neededName
  skip
  let parents ← namesAfter "extends" nested
  let members ← classBody nested
  return .declaration ⟨span, name, .interfaceType parents, members⟩

def traitDeclaration (nested : Nested) : Reader Stmt := do
  let span ← here
  attributes nested.limit
  keyword "trait"
  skip
  let name ← neededName
  skip
  let members ← classBody nested
  return .declaration ⟨span, name, .traitType, members⟩

def enumDeclaration (nested : Nested) : Reader Stmt := do
  let span ← here
  attributes nested.limit
  token Lexeme.enumKeyword
  skip
  let name ← neededName
  skip
  let backing ← perhaps (returnHint nested)
  let interfaces ← namesAfter "implements" nested
  let members ← classBody nested
  return .declaration ⟨span, name, .enumType backing interfaces, members⟩

/-! All statements -/

def lone (reader : Reader Stmt) : Reader (List Stmt) := do return [← reader]

def statement (nested : Nested) : Reader (List Stmt) :=
  lone (.block <$> block nested) <|> closingTag <|>
    ([ifStatement, whileStatement, doWhileStatement, forStatement, foreachStatement,
      switchStatement, tryStatement, wordStatement "return" .returnValue, echoStatement,
      wordStatement "break" .breakOut, wordStatement "continue" .continueOn, globalStatement,
      staticStatement, bracedNamespace, unbracedNamespace, useStatement, constStatement,
      declareStatement, functionDeclaration, classDeclaration, interfaceDeclaration,
      traitDeclaration, enumDeclaration, fun _ => noopStatement, expressionStatement].foldr
        (fun reader others => lone (reader nested) <|> others) failure)

end Reader

end PhpAudit
