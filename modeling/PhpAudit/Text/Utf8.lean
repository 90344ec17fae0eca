import PhpAudit.Text.Hex

/-!
Text from bytes in UTF-8. A lead byte owes one to three bytes more, and the first of those has
narrower bounds after some lead bytes. A sequence that breaks off is bad up to the byte that does
not belong to it; reading goes on with that byte.
-/

namespace PhpAudit

namespace Utf8

inductive Fault where
  | invalidStart | invalidContinuation | unexpectedEnd
deriving DecidableEq, Inhabited

def Fault.message : Fault → String
  | invalidStart => "invalid start byte"
  | invalidContinuation => "invalid continuation byte"
  | unexpectedEnd => "unexpected end of data"

/-- A piece of a byte sequence: a character, or bytes that belong to none. -/
inductive Piece where
  | char (value : Char)
  | bad (bytes : List UInt8) (fault : Fault)
deriving DecidableEq, Inhabited

/-- An unfinished character: its bytes so far in reverse, the code so far, the number of bytes
owed and the bounds of the next one. -/
structure Pending where
  bytes : List UInt8
  code : Nat
  owed : Nat
  low : Nat := 0x80
  high : Nat := 0xBF

/-- What a byte between characters starts, or is by itself. -/
def lead (byte : UInt8) : Piece ⊕ Pending :=
  let value := byte.toNat
  if value < 0x80 then .inl (.char (Char.ofNat value))
  else if value < 0xC2 then .inl (.bad [byte] .invalidStart)
  else if value < 0xE0 then .inr ⟨[byte], value - 0xC0, 1, 0x80, 0xBF⟩
  else if value == 0xE0 then .inr ⟨[byte], 0, 2, 0xA0, 0xBF⟩
  else if value == 0xED then .inr ⟨[byte], 0xD, 2, 0x80, 0x9F⟩
  else if value < 0xF0 then .inr ⟨[byte], value - 0xE0, 2, 0x80, 0xBF⟩
  else if value == 0xF0 then .inr ⟨[byte], 0, 3, 0x90, 0xBF⟩
  else if value < 0xF4 then .inr ⟨[byte], value - 0xF0, 3, 0x80, 0xBF⟩
  else if value == 0xF4 then .inr ⟨[byte], 4, 3, 0x80, 0x8F⟩
  else .inl (.bad [byte] .invalidStart)

namespace Pending

def accepts (pending : Pending) (byte : UInt8) : Bool :=
  pending.low ≤ byte.toNat && byte.toNat ≤ pending.high

/-- Takes a byte that is accepted. -/
def add (pending : Pending) (byte : UInt8) : Piece ⊕ Pending :=
  let code := pending.code * 64 + (byte.toNat - 0x80)
  if pending.owed ≤ 1 then .inl (.char (Char.ofNat code))
  else .inr ⟨byte :: pending.bytes, code, pending.owed - 1, 0x80, 0xBF⟩

def broken (pending : Pending) (fault : Fault) : Piece := .bad pending.bytes.reverse fault

end Pending

/-- The pieces of a byte sequence after an unfinished character, if there is one. -/
def piecesFrom : Option Pending → List UInt8 → List Piece
  | none, [] => []
  | some pending, [] => [pending.broken .unexpectedEnd]
  | none, byte :: rest =>
      match lead byte with
      | .inl piece => piece :: piecesFrom none rest
      | .inr started => piecesFrom (some started) rest
  | some pending, byte :: rest =>
      if pending.accepts byte then
        match pending.add byte with
        | .inl piece => piece :: piecesFrom none rest
        | .inr longer => piecesFrom (some longer) rest
      else
        pending.broken .invalidContinuation ::
          match lead byte with
          | .inl piece => piece :: piecesFrom none rest
          | .inr started => piecesFrom (some started) rest

def pieces (bytes : List UInt8) : List Piece := piecesFrom none bytes

def replacement : Char := '\ufffd'

/-- The text with a replacement character for every bad piece. -/
def decodeLossy (bytes : List UInt8) : List Char :=
  (pieces bytes).map fun
    | .char value => value
    | .bad _ _ => replacement

/-- The first bad piece and the number of bytes before it. -/
structure Error where
  position : Nat
  bytes : List UInt8
  fault : Fault
deriving DecidableEq, Inhabited

def Error.message (error : Error) : String :=
  let place := match error.bytes with
    | [byte] =>
        "byte 0x" ++ String.ofList (hexDigits 2 byte.toNat) ++ " in position " ++
          toString error.position
    | _ =>
        "bytes in position " ++ toString error.position ++ "-" ++
          toString (error.position + error.bytes.length - 1)
  "'utf-8' codec can't decode " ++ place ++ ": " ++ error.fault.message

/-- The characters of pieces that start at a position, unless one of them is bad. -/
def collect (position : Nat) : List Piece → Except Error (List Char)
  | [] => .ok []
  | .bad bytes fault :: _ => .error ⟨position, bytes, fault⟩
  | .char value :: rest =>
      match collect (position + value.utf8Size) rest with
      | .ok characters => .ok (value :: characters)
      | .error error => .error error

/-- The text, if no byte is bad. -/
def decode (bytes : List UInt8) : Except Error (List Char) := collect 0 (pieces bytes)

end Utf8

/-- Every line end becomes a line feed. -/
def unifyNewlines : List Char → List Char
  | [] => []
  | '\r' :: '\n' :: rest => '\n' :: unifyNewlines rest
  | '\r' :: rest => '\n' :: unifyNewlines rest
  | character :: rest => character :: unifyNewlines rest

end PhpAudit
