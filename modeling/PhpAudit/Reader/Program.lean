import PhpAudit.Reader.Statement

/-!
Whole programs. The rules are tied together from the end of the text to its start: the parts
at a place only need those at the places after it, and each part is read at most once.
-/

namespace PhpAudit

namespace Parts

/-- The parts that start at a cursor. -/
def startingAt (nested : Nested) (cursor : Cursor) : Parts where
  hint := ⟨fun _ => Reader.taken (Reader.hint nested) cursor⟩
  unary := ⟨fun _ => Reader.taken (Reader.unary nested) cursor⟩
  binary := ⟨fun _ => Reader.taken (Reader.binary nested) cursor⟩
  ternary := ⟨fun _ => Reader.taken (Reader.ternary nested) cursor⟩
  expression := ⟨fun _ => Reader.taken (Reader.expression nested) cursor⟩
  statement := ⟨fun _ => Reader.taken (Reader.statement nested) cursor⟩

/-- The parts at every place of a text, the end included. While they are worked out at a place
the parts of that same place are not there yet. -/
def table (nested : Nested) (span : Span) (offset : Nat) : List Char → List Parts
  | [] => [startingAt nested ⟨[], span, offset, false, []⟩]
  | character :: rest =>
      let later := table nested (span.next character) (offset + 1) rest
      startingAt nested ⟨character :: rest, span, offset, false, nothing :: later⟩ :: later

end Parts

namespace Reader

/-- A program: text outside the tags, an opening tag and statements, each of which may be
missing. It takes as much of the text as it can. -/
def program (nested : Nested) : Reader (List Stmt) := do
  let html ← perhaps inlineHtml
  let tag ← perhaps openingTag
  skip
  let statements ← statementList nested
  return html.toList ++ tag.toList ++ statements

end Reader

/-- Why a text has no tree. -/
inductive ParseError where
  /-- The program ends before the text does, at this place. -/
  | stopped (span : Span)
  /-- A word stands where the tree has no meaning for it. -/
  | misread
deriving DecidableEq

namespace ParseError

def message : ParseError → String
  | stopped span =>
      s!"Unable to parse PHP source (line {span.line}, column {span.column})"
  | misread => "VisitationError"

end ParseError

/-- The statements of a text, which has to be a program as a whole. -/
def parse (text : String) : Except ParseError (List Stmt) :=
  let characters := text.toList
  let nested := Nested.held (characters.length + 1)
  match (Reader.program nested).run (Cursor.start characters (Parts.table nested {} 0 characters)) with
  | none => .error (.stopped {})
  | some (statements, cursor) =>
      if !cursor.rest.isEmpty then .error (.stopped cursor.span)
      else if cursor.misread then .error .misread
      else .ok statements

end PhpAudit
