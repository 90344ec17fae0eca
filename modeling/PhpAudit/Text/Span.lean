/-!
Places in a text. A span names a place by its line and column, both counted from one,
and by the number of bytes before it in the UTF-8 form of the text. Only a line feed
starts a new line, and a column counts characters.
-/

namespace PhpAudit

structure Span where
  line : Nat := 1
  column : Nat := 1
  position : Nat := 0
deriving DecidableEq, Inhabited

namespace Span

def next (place : Span) (character : Char) : Span :=
  if character = '\n' then ⟨place.line + 1, 1, place.position + character.utf8Size⟩
  else ⟨place.line, place.column + 1, place.position + character.utf8Size⟩

def after (place : Span) (characters : List Char) : Span :=
  characters.foldl next place

@[simp] theorem after_nil (place : Span) : place.after [] = place := rfl

@[simp] theorem after_cons (place : Span) (character : Char) (rest : List Char) :
    place.after (character :: rest) = (place.next character).after rest := rfl

theorem after_append (place : Span) (first second : List Char) :
    place.after (first ++ second) = (place.after first).after second := by
  simp [after, List.foldl_append]

end Span

/-- The place of a character offset in a text. Past the end the column goes on counting,
while the line and the byte position stay those of the end. -/
def spanAt (text : List Char) (offset : Nat) : Span :=
  let reached := ({} : Span).after (text.take offset)
  { reached with column := reached.column + (offset - text.length) }

end PhpAudit
