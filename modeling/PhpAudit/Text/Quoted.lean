import PhpAudit.Text.Hex
import PhpAudit.Text.Printable

/-!
Text between quotes, as messages show it. The quotes are single unless the text holds single
quotes and no double ones; backslashes, the closing quote and characters that are not printable
are escaped.
-/

namespace PhpAudit

/-- An escape with two, four or eight digits, the fewest that hold the code point. -/
def escapeCode (code : Nat) : List Char :=
  if code < 0x100 then '\\' :: 'x' :: hexDigits 2 code
  else if code < 0x10000 then '\\' :: 'u' :: hexDigits 4 code
  else '\\' :: 'U' :: hexDigits 8 code

def quoteChar (mark character : Char) : List Char :=
  if character == mark || character == '\\' then ['\\', character]
  else if character == '\n' then ['\\', 'n']
  else if character == '\r' then ['\\', 'r']
  else if character == '\t' then ['\\', 't']
  else if isPrintable character then [character]
  else escapeCode character.toNat

def quoteMark (text : List Char) : Char :=
  if text.contains '\'' && !text.contains '"' then '"' else '\''

def quoted (text : String) : String :=
  let mark := quoteMark text.toList
  String.ofList (mark :: text.toList.flatMap (quoteChar mark) ++ [mark])

/-- Quoted texts in brackets, with commas between them. -/
def quotedList (texts : List String) : String :=
  "[" ++ ", ".intercalate (texts.map quoted) ++ "]"

end PhpAudit
