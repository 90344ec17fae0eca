import PhpAudit.Command.Run

/-!
The command line program. The content of the working directory is read from the standard input:
a line is a path, alone for a directory, or with a tab and the bytes of a file in hexadecimal
digits behind it.
-/

namespace PhpAudit

def hexDigitValue (character : Char) : Option Nat :=
  if character.isDigit then some (character.toNat - '0'.toNat)
  else if 'a' ≤ character && character ≤ 'f' then some (character.toNat - 'a'.toNat + 10)
  else if 'A' ≤ character && character ≤ 'F' then some (character.toNat - 'A'.toNat + 10)
  else none

/-- The bytes written as pairs of hexadecimal digits, if they are nothing else. -/
def hexContent : List Char → Option (List UInt8)
  | [] => some []
  | [_] => none
  | high :: low :: rest => do
      let first ← hexDigitValue high
      let second ← hexDigitValue low
      return UInt8.ofNat (first * 16 + second) :: (← hexContent rest)

/-- One line of the listing of the working directory. -/
def listingEntry (line : List Char) : Option (String × FileNode) :=
  match line.span (· != '\t') with
  | (path, []) => some (String.ofList path, .directory [])
  | (path, _ :: digits) => (hexContent digits).map fun content => (String.ofList path, .file content)

/-- A line without its line feed and the carriage return before it. -/
def withoutLineEnd (line : List Char) : List Char :=
  let body := if line.getLast? == some '\n' then line.dropLast else line
  if body.getLast? == some '\r' then body.dropLast else body

/-- The working directory of a listing, if all of its lines can be read. Empty lines say nothing. -/
def listedDirectory (lines : List String) : Option Directory := do
  let contents := (lines.map fun line => withoutLineEnd line.toList).filter fun line => line != []
  return FileNode.directoryOf (← contents.mapM listingEntry)

/-- The lines of a stream, in reverse before those already collected. -/
partial def collectLines (stream : IO.FS.Stream) (lines : List String) : IO (List String) := do
  let line ← stream.getLine
  if line.isEmpty then return lines.reverse else collectLines stream (line :: lines)

/-- Colours are for terminals, unless the surroundings ask for them or forbid them. -/
def terminalPalette : IO Palette := do
  if (← IO.getEnv "NO_COLOR").isSome then return .plain
  if (← IO.getEnv "FORCE_COLOR").isSome then return .coloured
  if (← IO.getEnv "TERM") == some "dumb" then return .plain
  return if ← (← IO.getStdout).isTty then .coloured else .plain

end PhpAudit

def main (arguments : List String) : IO UInt32 := do
  let lines ← PhpAudit.collectLines (← IO.getStdin) []
  match PhpAudit.listedDirectory lines with
  | none =>
      (← IO.getStderr).putStrLn "phanalist: error: unreadable listing of the working directory"
      return 2
  | some directory =>
      let outcome := PhpAudit.Command.run ⟨directory, []⟩ (← PhpAudit.terminalPalette) arguments
      for message in outcome.messages do
        (← IO.getStderr).putStrLn message
      (← IO.getStdout).putStr outcome.output
      return UInt32.ofNat outcome.status.code
