import PhpAudit.Text.Blank
import PhpAudit.Text.DecimalDigit
import PhpAudit.Text.Letter

/-!
Lexical rules. A lexeme looks at the characters ahead and tells how many of them it takes,
or that it takes none. What separates lexemes is trivia: white space and comments.
-/

namespace PhpAudit

abbrev Lexeme := List Char → Option Nat

namespace Lexeme

/-! White space and comments -/

/-- A line comment ends before a line feed and before a closing tag. -/
def lineComment : List Char → Nat
  | [] => 0
  | character :: rest =>
      if character == '\n' then 0
      else if character == '?' && rest.head? == some '>' then 0
      else lineComment rest + 1

/-- The rest of a block comment up to its end mark. -/
def blockComment : Lexeme
  | [] => none
  | character :: rest =>
      if character == '*' && rest.head? == some '/' then some 2
      else (blockComment rest).map (· + 1)

/-- One white character or one comment. A block comment without end is none, and `#[` opens
an attribute. -/
def triviaItem : List Char → Nat
  | [] => 0
  | character :: rest =>
      if isBlank character then 1
      else if character == '#' then
        if rest.head? == some '[' then 0 else lineComment rest + 1
      else if character == '/' then
        match rest with
        | [] => 0
        | second :: body =>
            if second == '/' then lineComment body + 2
            else if second == '*' then
              match blockComment body with
              | some length => length + 2
              | none => 0
            else 0
      else 0

/-- The trivia ahead, of which `known` characters have been recognised already. -/
def triviaFrom (known : Nat) : List Char → Nat
  | [] => 0
  | character :: rest =>
      match known with
      | more + 1 => triviaFrom more rest + 1
      | 0 =>
          match triviaItem (character :: rest) with
          | 0 => 0
          | more + 1 => triviaFrom more rest + 1

def trivia (text : List Char) : Nat := triviaFrom 0 text

/-! Words and marks -/

/-- The characters of a mark, exactly. -/
def mark : List Char → Lexeme
  | [], _ => some 0
  | _ :: _, [] => none
  | expected :: more, character :: rest =>
      if character == expected then (mark more rest).map (· + 1) else none

/-- The letters of a word in any case. -/
def letters : List Char → Lexeme
  | [], _ => some 0
  | _ :: _, [] => none
  | expected :: more, character :: rest =>
      if foldsTo expected character then (letters more rest).map (· + 1) else none

/-- What a lexeme takes, provided the text after it is acceptable. -/
def before (lexeme : Lexeme) (accepts : List Char → Bool) : Lexeme := fun text =>
  match lexeme text with
  | some length => if accepts (text.drop length) then some length else none
  | none => none

def startsWith (test : Char → Bool) : List Char → Bool
  | [] => false
  | character :: _ => test character

def either (first second : Lexeme) : Lexeme := fun text =>
  match first text with
  | some length => some length
  | none => second text

def anyOf (lexemes : List Lexeme) : Lexeme := fun text =>
  lexemes.findSome? fun lexeme => lexeme text

/-- A lexeme followed by another one. -/
def followedBy (first second : Lexeme) : Lexeme := fun text =>
  match first text with
  | some length => (second (text.drop length)).map (length + ·)
  | none => none

def perhaps (lexeme : Lexeme) : Lexeme := fun text =>
  match lexeme text with
  | some length => some length
  | none => some 0

def one (test : Char → Bool) : Lexeme
  | [] => none
  | character :: _ => if test character then some 1 else none

/-- The longest run of such characters, which may be empty. -/
def run (test : Char → Bool) : Lexeme := fun text => some (text.takeWhile test).length

/-- The longest run of such characters, of which there is at least one. -/
def run1 (test : Char → Bool) : Lexeme := followedBy (one test) (run test)

/-- A word of the language: its letters in any case, not continued by another one. -/
def keyword (word : String) : Lexeme :=
  before (letters word.toList) fun rest => !startsWith continuesWord rest

/-- A word that counts as one only before an opening parenthesis. -/
def keywordCall (word : String) : Lexeme :=
  before (letters word.toList) fun rest => startsWith (· == '(') (rest.dropWhile isBlank)

/-- The word `enum` counts as one only before space and a letter. -/
def enumKeyword : Lexeme :=
  before (letters "enum".toList) fun rest =>
    startsWith isBlank rest &&
      startsWith (fun character => character.isAlpha || character == '_' ||
        isFoldedLetter character) (rest.dropWhile isBlank)

/-- The word `namespace` counts as one only when no backslash follows. -/
def namespaceKeyword : Lexeme :=
  before (keyword "namespace") fun rest => !startsWith (· == '\\') (rest.dropWhile isBlank)

def loadKeyword : Lexeme :=
  anyOf (["include_once", "include", "require_once", "require"].map keyword)

def classModifier : Lexeme :=
  anyOf (["abstract", "final", "readonly"].map keyword)

/-- Modifiers are not continued by an opening parenthesis either. -/
def modifier (lexeme : Lexeme) : Lexeme :=
  before lexeme fun rest =>
    !startsWith (fun character => continuesWord character || character == '(') rest

def visibility : Lexeme :=
  followedBy (anyOf (["public", "protected", "private"].map fun word => letters word.toList))
    (perhaps (letters "(set)".toList))

def parameterModifier : Lexeme :=
  either (modifier visibility) (modifier (letters "readonly".toList))

def memberModifier : Lexeme :=
  either (modifier visibility)
    (anyOf (["static", "abstract", "final", "readonly", "var"].map fun word =>
      modifier (letters word.toList)))

/-! Names -/

def identifier : Lexeme := followedBy (one isNameStart) (run isNamePart)

/-- The rest of a qualified name. A backslash belongs to it only before another name. -/
def nameTail (start part : Char → Bool) : List Char → Nat
  | [] => 0
  | character :: rest =>
      if part character then nameTail start part rest + 1
      else if character == '\\' && startsWith start rest then nameTail start part rest + 1
      else 0

/-- Names joined by backslashes, perhaps after a leading one. -/
def qualifiedBy (start part : Char → Bool) : Lexeme :=
  followedBy (perhaps (one (· == '\\')))
    (followedBy (one start) fun rest => some (nameTail start part rest))

/-- The name of a type in a hint. -/
def qualified : Lexeme := qualifiedBy isNameStart isNamePart

def reservedWords : List String :=
  ["and", "as", "break", "case", "catch", "class", "clone", "const", "continue", "declare",
    "default", "do", "echo", "else", "elseif", "enddeclare", "endfor", "endforeach", "endif",
    "endswitch", "endwhile", "extends", "finally", "fn", "for", "foreach", "function", "global",
    "goto", "if", "implements", "include", "include_once", "instanceof", "insteadof",
    "interface", "match", "namespace", "new", "or", "print", "private", "protected", "public",
    "require", "require_once", "return", "switch", "throw", "trait", "try", "use", "var",
    "while", "xor", "yield"]

def reservedLetters : List (List Char) := reservedWords.map String.toList

/-- Whether the text starts with a reserved word that no name character continues. -/
def reservedAhead (text : List Char) : Bool :=
  reservedLetters.any fun word =>
    (before (letters word) (fun rest => !startsWith isAnyCaseNamePart rest) text).isSome

/-- A name that is no reserved word. Case is ignored in it. -/
def name : Lexeme := fun text =>
  if reservedAhead text then none else qualifiedBy isAnyCaseNameStart isAnyCaseNamePart text

def dollarName : Lexeme := followedBy (one (· == '$')) identifier

/-! Literals -/

def digits : Lexeme :=
  followedBy (one isDecimalDigit) (run fun character => isDecimalDigit character || character == '_')

def exponent : Lexeme :=
  followedBy (one fun character => character == 'e' || character == 'E')
    (followedBy (perhaps (one fun character => character == '+' || character == '-'))
      (run1 isDecimalDigit))

/-- A numeral in another base: a zero, a letter for the base and its digits. -/
def based (lower upper : Char) (isDigit : Char → Bool) : Lexeme :=
  followedBy (one (· == '0'))
    (followedBy (one fun character => character == lower || character == upper)
      (run1 fun character => isDigit character || character == '_'))

def isHexDigit (character : Char) : Bool :=
  character.isDigit || ('a' ≤ character && character ≤ 'f') || ('A' ≤ character && character ≤ 'F')

def number : Lexeme :=
  anyOf [
    based 'x' 'X' isHexDigit,
    based 'b' 'B' fun character => character == '0' || character == '1',
    based 'o' 'O' fun character => '0' ≤ character && character ≤ '7',
    followedBy (perhaps digits)
      (followedBy (one (· == '.')) (followedBy digits (perhaps exponent))),
    followedBy digits (perhaps exponent)]

/-- The rest of a text in quotes. A backslash takes the next character with it. -/
def quoted (quote : Char) : Bool → Lexeme
  | _, [] => none
  | true, _ :: rest => (quoted quote false rest).map (· + 1)
  | false, character :: rest =>
      if character == quote then some 1
      else (quoted quote (character == '\\') rest).map (· + 1)

def binaryMark : Lexeme := perhaps (one fun character => character == 'b' || character == 'B')

def string : Lexeme :=
  anyOf [
    followedBy binaryMark (followedBy (one (· == '\'')) (quoted '\'' false)),
    followedBy binaryMark (followedBy (one (· == '"')) (quoted '"' false)),
    followedBy (one (· == '\x60')) (quoted '\x60' false)]

def isLabelStart (character : Char) : Bool := character.isAlpha || character == '_'

def label : Lexeme := followedBy (one isLabelStart) (run isWordChar)

def lineEnd : Lexeme := followedBy (perhaps (one (· == '\r'))) (one (· == '\n'))

def isTabOrSpace (character : Char) : Bool := character == ' ' || character == '\t'

/-- The closing label of a heredoc at the start of a line. -/
def closingLabel (word : List Char) : Lexeme :=
  before (followedBy (run isTabOrSpace) (mark word)) fun rest => !startsWith isWordChar rest

/-- The body of a heredoc up to and with its closing label. -/
def heredocBody (word : List Char) (lineStart : Bool) : Lexeme
  | [] => none
  | character :: rest =>
      match if lineStart then closingLabel word (character :: rest) else none with
      | some length => some length
      | none => (heredocBody word (character == '\n') rest).map (· + 1)

/-- A heredoc with its label bare or in quotes of the given kind. -/
def heredocWith (quote : List Char) : Lexeme := fun text =>
  let opening := followedBy binaryMark
    (followedBy (mark "<<<".toList) (followedBy (run isTabOrSpace) (mark quote)))
  match opening text with
  | none => none
  | some start =>
      match label (text.drop start) with
      | none => none
      | some size =>
          let word := (text.drop start).take size
          (followedBy (mark quote) (followedBy lineEnd (heredocBody word true))
            (text.drop (start + size))).map (start + size + ·)

def heredoc : Lexeme := anyOf [heredocWith ['"'], heredocWith ['\''], heredocWith []]

/-! Marks of larger structure -/

/-- Text outside the tags, up to the next opening tag. -/
def htmlLength : List Char → Nat
  | [] => 0
  | character :: rest =>
      if character == '<' && rest.head? == some '?' then 0 else htmlLength rest + 1

def inlineHtml : Lexeme := fun text =>
  match htmlLength text with
  | 0 => none
  | length => some length

def openingTag : Lexeme :=
  followedBy (mark "<?".toList) (perhaps (either (keyword "php") (one (· == '='))))

/-- The rest of an attribute, whose brackets may be nested three deep in all. -/
def attributeRest (depth : Nat) : Lexeme
  | [] => none
  | character :: rest =>
      if character == '[' then
        if depth < 3 then (attributeRest (depth + 1) rest).map (· + 1) else none
      else if character == ']' then
        match depth with
        | outer + 2 => (attributeRest (outer + 1) rest).map (· + 1)
        | _ => some 1
      else (attributeRest depth rest).map (· + 1)

def attributeGroup : Lexeme := followedBy (mark "#[".toList) (attributeRest 1)

/-- The rules by which a class adapts the traits it uses, in braces. -/
def traitAdaptations : Lexeme :=
  followedBy (one (· == '\x7b')) (followedBy (run (· != '\x7d')) (one (· == '\x7d')))

def castWords : List String :=
  ["int", "integer", "bool", "boolean", "float", "double", "real", "string", "binary", "array",
    "object", "unset"]

def cast : Lexeme :=
  anyOf (castWords.map fun word =>
    followedBy (one (· == '('))
      (followedBy (run isBlank)
        (followedBy (letters word.toList) (followedBy (run isBlank) (one (· == ')'))))))

/-- The question mark of a conditional expression, as opposed to other marks it starts. -/
def question : Lexeme :=
  before (one (· == '?')) fun rest =>
    (mark ['?'] rest).isNone && (mark ['-', '>'] rest).isNone && (mark ['>'] rest).isNone

/-- A colon that does not start a double colon. -/
def colon : Lexeme := before (one (· == ':')) fun rest => !startsWith (· == ':') rest

end Lexeme

end PhpAudit
