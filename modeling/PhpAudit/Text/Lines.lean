/-!
The lines of a text. A line ends at a line feed, a carriage return or both in that order, at a
vertical tab or form feed, at one of the separators U+001C to U+001E, at U+0085 and at the
separators of lines and paragraphs. The last line may end with the text.
-/

namespace PhpAudit

def isLineEnd (character : Char) : Bool :=
  let code := character.toNat
  (0x0A ≤ code && code ≤ 0x0D) || (0x1C ≤ code && code ≤ 0x1E) || code == 0x85 ||
    code == 0x2028 || code == 0x2029

/-- Collects the characters of the current line in reverse. -/
def splitLinesFrom (current : List Char) : List Char → List String
  | [] => if current.isEmpty then [] else [String.ofList current.reverse]
  | '\r' :: '\n' :: rest => String.ofList current.reverse :: splitLinesFrom [] rest
  | character :: rest =>
      if isLineEnd character then String.ofList current.reverse :: splitLinesFrom [] rest
      else splitLinesFrom (character :: current) rest

def splitLines (text : String) : List String := splitLinesFrom [] text.toList

end PhpAudit
