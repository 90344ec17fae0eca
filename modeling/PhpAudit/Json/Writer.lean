import PhpAudit.Decimal.Notation
import PhpAudit.Json.Value
import PhpAudit.Text.Hex

/-!
Writing JSON text, in the characters of the ASCII range only. Every entry stands on a line of
its own, indented by the given number of spaces for each level, or all stand on one line.
-/

namespace PhpAudit

namespace Json

/-- A code of sixteen bits as an escape with four hexadecimal digits. -/
def codeEscape (code : Nat) : List Char := '\\' :: 'u' :: hexDigits 4 code

/-- A character inside quotes. Beyond sixteen bits it is written as a pair of surrogates. -/
def escaped (character : Char) : List Char :=
  if character == '"' then ['\\', '"']
  else if character == '\\' then ['\\', '\\']
  else if character == '\n' then ['\\', 'n']
  else if character == '\r' then ['\\', 'r']
  else if character == '\t' then ['\\', 't']
  else if character == '\x08' then ['\\', 'b']
  else if character == '\x0c' then ['\\', 'f']
  else if ' ' ≤ character && character ≤ '~' then [character]
  else
    let code := character.toNat
    if code < 0x10000 then codeEscape code
    else codeEscape (0xD800 + (code - 0x10000) / 0x400) ++
      codeEscape (0xDC00 + (code - 0x10000) % 0x400)

def quote (text : String) : String :=
  "\"" ++ String.ofList (text.toList.flatMap escaped) ++ "\""

/-- The lines between the brackets of a list or object with the given parts. -/
def lines (indent : Option Nat) (level : Nat) (opening closing : String) (parts : List String) :
    String :=
  match indent with
  | none => opening ++ ",".intercalate parts ++ closing
  | some width =>
      let inner := "\n" ++ "".pushn ' ' (width * (level + 1))
      opening ++ inner ++ ("," ++ inner).intercalate parts ++ "\n" ++ "".pushn ' ' (width * level) ++
        closing

def colon (indent : Option Nat) : String := if indent.isSome then ": " else ":"

mutual

def writeAt (indent : Option Nat) (level : Nat) : Json → String
  | null => "null"
  | bool value => if value then "true" else "false"
  | int value => toString value
  | float value => shortestText .json value
  | text value => quote value
  | list [] => "[]"
  | list (first :: rest) =>
      lines indent level "[" "]" (writeItems indent (level + 1) (first :: rest))
  | object [] => "\x7b\x7d"
  | object (first :: rest) =>
      lines indent level "\x7b" "\x7d" (writeEntries indent (level + 1) (first :: rest))

def writeItems (indent : Option Nat) (level : Nat) : List Json → List String
  | [] => []
  | value :: rest => writeAt indent level value :: writeItems indent level rest

def writeEntries (indent : Option Nat) (level : Nat) : List (String × Json) → List String
  | [] => []
  | entry :: rest => writeEntry indent level entry :: writeEntries indent level rest

def writeEntry (indent : Option Nat) (level : Nat) : String × Json → String
  | (name, value) => quote name ++ colon indent ++ writeAt indent level value

end

/-- A value on many lines. -/
def render (indent : Nat) (value : Json) : String := writeAt (some indent) 0 value

/-- A value on one line. -/
def compact (value : Json) : String := writeAt none 0 value

end Json

end PhpAudit
