/-!
Letters as words of the language see them. Keywords ignore case by simple case folding, by
which the long s, the Kelvin sign and the dotted capital I stand for `s`, `k` and `i`; a
name may hold any character from U+0080 to U+FFFF.
-/

namespace PhpAudit

/-- The lower-case letter or other character stands for itself, for its capital and for the
characters that fold to it. -/
def foldsTo (letter character : Char) : Bool :=
  character == letter || character.toLower == letter ||
    (letter == 's' && character == '\u017f') || (letter == 'k' && character == '\u212a') ||
    (letter == 'i' && character == '\u0130')

def isNameStart (character : Char) : Bool :=
  character.isAlpha || character == '_' ||
    (0x80 ≤ character.toNat && character.toNat ≤ 0xFFFF)

def isNamePart (character : Char) : Bool :=
  isNameStart character || character.isDigit

/-- A character beyond U+FFFF whose other case lies in the range of name characters. A name
that ignores case may hold it. -/
def isFarLetter (character : Char) : Bool := character.toNat == 0x1DF95

def isAnyCaseNameStart (character : Char) : Bool :=
  isNameStart character || isFarLetter character

def isAnyCaseNamePart (character : Char) : Bool :=
  isNamePart character || isFarLetter character

/-- Letters, digits and the underscore of the ASCII range. -/
def isWordChar (character : Char) : Bool :=
  character.isAlphanum || character == '_'

/-- The characters outside the ASCII range that fold to a letter inside it, and the dotless i. -/
def isFoldedLetter (character : Char) : Bool :=
  character == '\u017f' || character == '\u212a' || character == '\u0130' || character == '\u0131'

/-- A character that continues a keyword and so makes it another word. -/
def continuesWord (character : Char) : Bool :=
  isWordChar character || isFoldedLetter character

/-- Lower case of a character that a keyword can be written with. The dotted capital I
becomes an `i` with a combining dot. -/
def lowerChar (character : Char) : List Char :=
  if character == '\u0130' then ['i', '\u0307']
  else if character == '\u212a' then ['k']
  else [character.toLower]

def lowerWord (word : String) : String :=
  String.ofList (word.toList.flatMap lowerChar)

/-- Lower case of the ASCII letters only. -/
def lowerAscii (word : String) : String :=
  String.ofList (word.toList.map Char.toLower)

end PhpAudit
