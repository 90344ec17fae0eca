import PhpAudit.Json.Value

/-!
Reading JSON text. A fault tells what was missing and at which character. The words `NaN`,
`Infinity` and `-Infinity` are read as floats.
-/

namespace PhpAudit

namespace Json

inductive FaultKind where
  | byteOrderMark
  | value
  | propertyName
  | colon
  | comma
  | controlCharacter
  | unterminated
  | badEscape
  | badCode
  | extra
  /-- A whole number with more digits than are read, and how many it has. -/
  | tooManyDigits (count : Nat)
deriving DecidableEq

def digitLimit : Nat := 4300

namespace FaultKind

def message : FaultKind → String
  | byteOrderMark => "Unexpected UTF-8 BOM (decode using utf-8-sig)"
  | value => "Expecting value"
  | propertyName => "Expecting property name enclosed in double quotes"
  | colon => "Expecting ':' delimiter"
  | comma => "Expecting ',' delimiter"
  | controlCharacter => "Invalid control character at"
  | unterminated => "Unterminated string starting at"
  | badEscape => "Invalid \\escape"
  | badCode => "Invalid \\uXXXX escape"
  | extra => "Extra data"
  | tooManyDigits count =>
      s!"Exceeds the limit ({digitLimit} digits) for integer string conversion: value has " ++
        s!"{count} digits; use sys.set_int_max_str_digits() to increase the limit"

end FaultKind

structure Fault where
  kind : FaultKind
  offset : Nat
deriving DecidableEq

namespace Fault

/-- The fault with the line, column and offset of its character in the text. -/
def message (fault : Fault) (text : List Char) : String :=
  let before := text.take fault.offset
  let line := before.count '\n' + 1
  let column := (before.reverse.takeWhile (· != '\n')).length + 1
  s!"{fault.kind.message}: line {line} column {column} (char {fault.offset})"

end Fault

/-- The text ahead and the number of characters before it. -/
structure Place where
  offset : Nat
  rest : List Char

namespace Place

def drop (place : Place) (count : Nat) : Place :=
  ⟨place.offset + count, place.rest.drop count⟩

def isSpace (character : Char) : Bool :=
  character == ' ' || character == '\t' || character == '\n' || character == '\r'

def skipSpace (place : Place) : Place :=
  place.drop (place.rest.takeWhile isSpace).length

def fail {Value : Type} (place : Place) (kind : FaultKind) : Except Fault Value :=
  .error ⟨kind, place.offset⟩

end Place

/-! Numbers -/

/-- The natural number that a list of ASCII digits writes. -/
def naturalOf (digits : List Char) : Nat :=
  digits.foldl (fun total digit => total * 10 + (digit.toNat - '0'.toNat)) 0

/-- The float nearest to `digits * 10 ^ exponent`. Beyond the powers of ten that floats reach, it
is infinite or zero. -/
def floatOf (digits : Nat) (exponent : Int) : Float :=
  if digits == 0 then 0.0
  else if 400 < exponent then 1.0 / 0.0
  else if exponent + (toString digits).length < -400 then 0.0
  else Float.ofScientific digits (exponent < 0) exponent.natAbs

/-- Digits after a point, if there are any. -/
def fractionDigits : List Char → List Char
  | '.' :: rest => rest.takeWhile Char.isDigit
  | _ => []

/-- An exponent with its length, if there is one. -/
def exponentPart : List Char → Option (Int × Nat)
  | [] => none
  | mark :: rest =>
      if mark == 'e' || mark == 'E' then
        let (negative, signed, digits) := match rest with
          | '-' :: more => (true, 1, more.takeWhile Char.isDigit)
          | '+' :: more => (false, 1, more.takeWhile Char.isDigit)
          | more => (false, 0, more.takeWhile Char.isDigit)
        if digits.isEmpty then none
        else
          let size := naturalOf digits
          some (if negative then -(size : Int) else size, 1 + signed + digits.length)
      else none

/-- The digits of a whole number, which has no leading zeros. -/
def wholeDigits (rest : List Char) : List Char :=
  match rest with
  | '0' :: _ => ['0']
  | _ => rest.takeWhile Char.isDigit

def number (place : Place) : Except Fault (Json × Place) :=
  let (negative, rest) := match place.rest with
    | '-' :: rest => (true, rest)
    | rest => (false, rest)
  let whole := wholeDigits rest
  if whole.isEmpty then place.fail .value
  else
    let fraction := fractionDigits (rest.drop whole.length)
    let pointed := if fraction.isEmpty then 0 else fraction.length + 1
    let exponent := exponentPart (rest.drop (whole.length + pointed))
    let length := (if negative then 1 else 0) + whole.length + pointed +
      (exponent.map Prod.snd).getD 0
    if fraction.isEmpty && exponent.isNone then
      if digitLimit < whole.length then place.fail (.tooManyDigits whole.length)
      else
        let size := naturalOf whole
        .ok (.int (if negative then -(size : Int) else size), place.drop length)
    else
      let magnitude := floatOf (naturalOf (whole ++ fraction))
        ((exponent.map Prod.fst).getD 0 - fraction.length)
      .ok (.float (if negative then -magnitude else magnitude), place.drop length)

/-! Texts -/

def hexValue (character : Char) : Option Nat :=
  if character.isDigit then some (character.toNat - '0'.toNat)
  else if 'a' ≤ character && character ≤ 'f' then some (character.toNat - 'a'.toNat + 10)
  else if 'A' ≤ character && character ≤ 'F' then some (character.toNat - 'A'.toNat + 10)
  else none

/-- The number that four hexadecimal digits write. -/
def hexCode : List Char → Option Nat
  | a :: b :: c :: d :: _ => do
      return (((← hexValue a) * 16 + (← hexValue b)) * 16 + (← hexValue c)) * 16 + (← hexValue d)
  | _ => none

def escapeLetter : Char → Option Char
  | '"' => some '"'
  | '\\' => some '\\'
  | '/' => some '/'
  | 'b' => some '\x08'
  | 'f' => some '\x0c'
  | 'n' => some '\n'
  | 'r' => some '\r'
  | 't' => some '\t'
  | _ => none

def isHighSurrogate (code : Nat) : Bool := 0xD800 ≤ code && code ≤ 0xDBFF

def isLowSurrogate (code : Nat) : Bool := 0xDC00 ≤ code && code ≤ 0xDFFF

def joinSurrogates (high low : Nat) : Nat :=
  0x10000 + (high - 0xD800) * 0x400 + (low - 0xDC00)

/-- The character of a code; half of a surrogate pair is replaced. -/
def charOf (code : Nat) : Char :=
  if isHighSurrogate code || isLowSurrogate code then '\ufffd' else Char.ofNat code

def longerThan {Value : Type} : Nat → List Value → Bool
  | _, [] => false
  | 0, _ :: _ => true
  | count + 1, _ :: rest => longerThan count rest

/-- The second half of a surrogate pair, after its first half. -/
def secondHalf (high : Nat) (rest : List Char) (offset : Nat) :
    Except Fault (Char × Nat) :=
  match rest with
  | '\\' :: 'u' :: digits =>
      if isHighSurrogate high && longerThan 6 rest then
        match hexCode digits with
        | none => .error ⟨.badCode, offset + 1⟩
        | some low =>
            if isLowSurrogate low then .ok (Char.ofNat (joinSurrogates high low), 6)
            else .ok (charOf high, 0)
      else .ok (charOf high, 0)
  | _ => .ok (charOf high, 0)

/-- The character of an escape and its length. The text starts after the backslash, whose
offset is given. -/
def escape (rest : List Char) (offset start : Nat) : Except Fault (Char × Nat) :=
  match rest with
  | [] => .error ⟨.unterminated, start⟩
  | 'u' :: digits =>
      if longerThan 4 digits then
        match hexCode digits with
        | none => .error ⟨.badCode, offset + 1⟩
        | some code => do
            let (character, more) ← secondHalf code (digits.drop 4) (offset + 6)
            return (character, 5 + more)
      else .error ⟨.badCode, offset + 1⟩
  | letter :: _ =>
      match escapeLetter letter with
      | some character => .ok (character, 1)
      | none => .error ⟨.badEscape, offset⟩

/-- The rest of a text in quotes, of which `known` characters belong to an escape already read.
The opening quote stands at `start`. -/
def textFrom (start : Nat) : Nat → Nat → List Char → Except Fault (List Char × Place)
  | _, _, [] => .error ⟨.unterminated, start⟩
  | offset, known + 1, _ :: rest => textFrom start (offset + 1) known rest
  | offset, 0, character :: rest =>
      if character == '"' then .ok ([], ⟨offset + 1, rest⟩)
      else if character == '\\' then
        match escape rest offset start with
        | .error fault => .error fault
        | .ok (escaped, length) =>
            match textFrom start (offset + 1) length rest with
            | .error fault => .error fault
            | .ok (more, after) => .ok (escaped :: more, after)
      else if character.toNat ≤ 0x1F then .error ⟨.controlCharacter, offset⟩
      else
        match textFrom start (offset + 1) 0 rest with
        | .error fault => .error fault
        | .ok (more, after) => .ok (character :: more, after)

/-- A text whose opening quote is the next character. -/
def quotedText (place : Place) : Except Fault (String × Place) :=
  match textFrom place.offset (place.offset + 1) 0 (place.rest.drop 1) with
  | .error fault => .error fault
  | .ok (characters, after) => .ok (String.ofList characters, after)

/-! Values -/

abbrev ValueReader := Place → Except Fault (Json × Place)

/-- The words that stand for values. -/
def words : List (String × Json) :=
  [("null", .null), ("true", .bool true), ("false", .bool false),
    ("NaN", .float (0.0 / 0.0)), ("Infinity", .float (1.0 / 0.0)),
    ("-Infinity", .float (-1.0 / 0.0))]

def wordAhead (rest : List Char) : Option (Json × Nat) :=
  words.findSome? fun (word, value) =>
    if word.toList.isPrefixOf rest then some (value, word.length) else none

/-- The items of a list after its opening bracket, up to its end. -/
def items (value : ValueReader) : Nat → Place → Except Fault (List Json × Place)
  | 0, place => place.fail .value
  | limit + 1, place => do
      let (first, after) ← value place
      let after := after.skipSpace
      match after.rest with
      | ']' :: _ => return ([first], after.drop 1)
      | ',' :: _ =>
          let (rest, last) ← items value limit (after.drop 1).skipSpace
          return (first :: rest, last)
      | _ => after.fail .comma

def entry (value : ValueReader) (place : Place) :
    Except Fault (String × Json × Place) := do
  match place.rest with
  | '"' :: _ =>
      let (name, after) ← quotedText place
      let after := after.skipSpace
      match after.rest with
      | ':' :: _ =>
          let (content, last) ← value (after.drop 1).skipSpace
          return (name, content, last.skipSpace)
      | _ => after.fail .colon
  | _ => place.fail .propertyName

/-- The entries of an object after its opening brace, up to its end. -/
def entries (value : ValueReader) : Nat → Place → Except Fault (List (String × Json) × Place)
  | 0, place => place.fail .value
  | limit + 1, place => do
      let (name, content, after) ← entry value place
      match after.rest with
      | '\x7d' :: _ => return ([(name, content)], after.drop 1)
      | ',' :: _ =>
          let (rest, last) ← entries value limit (after.drop 1).skipSpace
          return ((name, content) :: rest, last)
      | _ => after.fail .comma

/-- A value nested at most `depth` deep, whose lists and objects have at most `limit` parts. -/
def valueAt (limit : Nat) : Nat → ValueReader
  | 0, place => place.fail .value
  | depth + 1, place =>
      match place.rest with
      | '"' :: _ => do
          let (content, after) ← quotedText place
          return (.text content, after)
      | '\x7b' :: _ => do
          let inner := (place.drop 1).skipSpace
          match inner.rest with
          | '\x7d' :: _ => return (.object [], inner.drop 1)
          | _ =>
              let (found, after) ← entries (valueAt limit depth) limit inner
              return (.object (Entries.ofList found), after)
      | '[' :: _ => do
          let inner := (place.drop 1).skipSpace
          match inner.rest with
          | ']' :: _ => return (.list [], inner.drop 1)
          | _ =>
              let (found, after) ← items (valueAt limit depth) limit inner
              return (.list found, after)
      | rest =>
          match wordAhead rest with
          | some (value, length) => .ok (value, place.drop length)
          | none => number place

/-- The value of a text, which holds nothing else but white space. -/
def read (text : String) : Except Fault Json := do
  let characters := text.toList
  if characters.head? == some '\ufeff' then throw ⟨.byteOrderMark, 0⟩
  let size := characters.length + 1
  let (value, after) ← valueAt size size (Place.mk 0 characters).skipSpace
  let after := after.skipSpace
  if after.rest.isEmpty then return value else after.fail .extra

end Json

end PhpAudit
