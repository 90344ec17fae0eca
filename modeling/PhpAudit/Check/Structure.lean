import PhpAudit.Check.Finding
import PhpAudit.Text.Blank
import PhpAudit.Text.Capital
import PhpAudit.Tree.Walk

/-!
Checks on how a file is written: opening tag, empty catches, modifiers, names, numbers of
parameters and missing return types.
-/

namespace PhpAudit

def onDeclaration (check : Declaration Expr Stmt → List Finding) : Stmt → List Finding
  | .declaration content => check content
  | _ => []

/-! Opening tag -/

def openingTagSpan : Stmt → Option Span
  | .openingTag span _ => some span
  | _ => none

/-- Whether the first line calls an interpreter. -/
def SourceFile.isScript (file : SourceFile) : Bool :=
  match file.lines with
  | [] => false
  | first :: _ => (trim first.toList).take 2 == ['#', '!']

def wrongTagLine (span : Span) : List Finding :=
  if 1 < span.line then
    [⟨span, "The opening tag is not on the right line. " ++
      "This should always be the first line in a PHP file."⟩]
  else []

def wrongTagColumn (span : Span) : List Finding :=
  if 1 < span.column then
    [⟨span, "The opening tag doesn't start at the right column: " ++ toString span.column ++ "."⟩]
  else []

/-- Only the first opening tag counts. -/
def misplacedTag (file : SourceFile) : List Finding :=
  if file.isScript then []
  else match file.statements.findSome? openingTagSpan with
    | some span => wrongTagLine span ++ wrongTagColumn span
    | none => []

/-! Empty catches -/

def emptyCatches : Stmt → List Finding
  | .tryCatch _ _ catches _ =>
      (catches.filter fun clause => clause.block.statements.isEmpty).map fun clause =>
        ⟨clause.span, "There is an empty catch. It's not recommended to catch an " ++
          "Exception without doing anything with it."⟩
  | _ => []

/-! Modifiers -/

def methodsWithoutModifier (declaration : Declaration Expr Stmt) : List Finding :=
  (declaration.methods.filter fun method => method.modifiers.isEmpty).map fun method =>
    ⟨method.span, "Method name \"" ++ method.name.value ++
      "\" should be declared with a visibility modifier."⟩

/-- The entries of the properties without a modifier, each name once. -/
def entriesWithoutModifier (declaration : Declaration Expr Stmt) : List (VariableEntry Expr) :=
  declaration.members.flatMap fun
    | .property _ [] _ entries _ => entries
    | _ => []

/-- Keeps the first entry of every name that is not among the seen ones. -/
def firstEntries (seen : List String) : List (VariableEntry Expr) → List (VariableEntry Expr)
  | [] => []
  | entry :: rest =>
      if seen.contains entry.name then firstEntries seen rest
      else entry :: firstEntries (entry.name :: seen) rest

def propertiesWithoutModifier (declaration : Declaration Expr Stmt) : List Finding :=
  (firstEntries [] (entriesWithoutModifier declaration)).map fun entry =>
    ⟨entry.span, "The variables " ++ entry.name ++ " have no modifier."⟩

/-! Names -/

def classConstants (declaration : Declaration Expr Stmt) : List (ConstantEntry Expr) :=
  declaration.members.flatMap fun
    | .constant _ _ _ entries => entries
    | _ => []

def loweredConstants (entries : List (ConstantEntry Expr)) : List Finding :=
  (entries.filter fun entry => !isUpperCase entry.name.value).map fun entry =>
    ⟨entry.name.span, "The constant " ++ entry.name.value ++ " should be uppercase."⟩

def constantsInLowerCase : Stmt → List Finding
  | .constants _ entries => loweredConstants entries
  | .declaration content => loweredConstants (classConstants content)
  | _ => []

def DeclarationKind.word : DeclarationKind → String
  | classType _ _ _ => "class"
  | interfaceType _ => "interface"
  | traitType => "trait"
  | enumType _ _ => "enum"

def uncapitalizedName (declaration : Declaration Expr Stmt) : List Finding :=
  let name := declaration.name.value
  let word := declaration.kind.word
  if startsWithCapital name then []
  else [⟨declaration.name.span, "The " ++ word ++ " name " ++ name ++
    " is not capitalized. The first letter of the name of the " ++ word ++
    " should be in uppercase."⟩]

/-! Parameters -/

def Method.isConstructor (method : Method Expr Stmt) : Bool :=
  lowerAscii method.name.value == "__construct"

def tooManyParameters (maximum : Int) (checkConstructor : Bool)
    (declaration : Declaration Expr Stmt) : List Finding :=
  (declaration.methods.filter fun method =>
    maximum < method.parameters.length && (checkConstructor || !method.isConstructor)).map
    fun method =>
      let subject :=
        if method.isConstructor then "Constructor" else "Method " ++ method.name.value
      ⟨method.span, subject ++ " has too many parameters. More than " ++ toString maximum ++
        " parameters is considered a too much."⟩

/-! Return types -/

def returnsLiteralValue : Stmt → Bool
  | .returnValue _ (some value) => value.isLiteral
  | _ => false

def Method.returnsLiteral (method : Method Expr Stmt) : Bool :=
  match method.body with
  | none => false
  | some content => content.statements.any fun statement => statement.flatten.any returnsLiteralValue

def missingReturnTypes (declaration : Declaration Expr Stmt) : List Finding :=
  (declaration.methods.filter fun method =>
    method.returnHint.isNone && method.returnsLiteral).map fun method =>
      ⟨method.span, "The method " ++ method.name.value ++
        " has a return statement but it has no return type signature."⟩

end PhpAudit
