import PhpAudit.Log
import PhpAudit.Reader.Program
import PhpAudit.Receiver.Registry
import PhpAudit.Text.Lines

/-!
A PHP file as the checks see it: its lines, its statements, the types it declares and the
qualified name of the first of them. A text that cannot be read has no statements.
-/

namespace PhpAudit

structure SourceFile where
  path : String
  lines : List String
  statements : List Stmt

namespace SourceFile

/-- The path as messages name it. -/
def pathLabel (path : String) : String := if path.isEmpty then "<string>" else path

/-- Reads a text; a text that is not PHP gives a warning and a file without statements. -/
def ofText (path text : String) : SourceFile × Log :=
  let (statements, warnings) : List Stmt × Log := match parse text with
    | .ok statements => (statements, [])
    | .error error =>
        ([], [⟨.warning, .reader, "Unable to parse " ++ pathLabel path ++ ": " ++ error.message⟩])
  (⟨path, splitLines text, statements⟩,
    warnings ++ [⟨.debug, .source,
      path ++ ": " ++ toString statements.length ++ " top-level statements"⟩])

/-- The name of the first named namespace. -/
def packageName (file : SourceFile) : Option String :=
  file.statements.findSome? fun
    | .package _ (some name) _ _ => if name.isEmpty then none else some (canonicalType name)
    | _ => none

def declaredName : Stmt → Option String
  | .declaration content => some content.name.value
  | _ => none

/-- The name of the first declaration at the top level or directly in a namespace. -/
def typeName (file : SourceFile) : Option String :=
  file.statements.findSome? fun
    | .package _ _ statements _ => statements.findSome? declaredName
    | statement => declaredName statement

/-- The name of the first declaration behind the name of the first namespace. -/
def qualifiedName (file : SourceFile) : Option String :=
  match file.typeName, file.packageName with
  | none, _ => none
  | some type, none => some type
  | some type, some package => some (package ++ "\\" ++ type)

def types (file : SourceFile) : TypeRegistry := TypeRegistry.ofStatements file.statements

/-- The text of a line, counted from one; empty outside of the file. -/
def lineText (file : SourceFile) (line : Nat) : String :=
  if line == 0 then "" else (file.lines[line - 1]?).getD ""

end SourceFile

end PhpAudit
