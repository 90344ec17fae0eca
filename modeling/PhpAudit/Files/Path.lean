/-!
Paths. A path is absolute or relative and has parts; empty parts and the part `.` are left out
when it is read, and a path without parts is written `.`.
-/

namespace PhpAudit

structure Path where
  /-- The slashes at the start: none, one, or exactly two. -/
  root : String := ""
  parts : List String := []
deriving DecidableEq, Inhabited

namespace Path

/-- Splits at slashes; collects the characters of the current part in reverse. -/
def splitFrom (current : List Char) : List Char → List (List Char)
  | [] => [current.reverse]
  | character :: rest =>
      if character == '/' then current.reverse :: splitFrom [] rest
      else splitFrom (character :: current) rest

def splitParts (text : List Char) : List String :=
  ((splitFrom [] text).filter fun part => part != [] && part != ['.']).map String.ofList

def rootOf : List Char → String
  | '/' :: '/' :: '/' :: _ => "/"
  | '/' :: '/' :: _ => "//"
  | '/' :: _ => "/"
  | _ => ""

def ofText (text : String) : Path := ⟨rootOf text.toList, splitParts text.toList⟩

def isAbsolute (path : Path) : Bool := !path.root.isEmpty

def text (path : Path) : String :=
  if !path.isAbsolute && path.parts.isEmpty then "."
  else path.root ++ "/".intercalate path.parts

/-- The parts of a path as a link holds it. The part `.` stays, as only a directory has it; a
slash at the end stands for it. -/
def linkParts (target : List Char) : List String :=
  let parts := (splitFrom [] target).filter (· != [])
  (if target.getLast? == some '/' then parts ++ [['.']] else parts).map String.ofList

/-- No path may be longer than 4095 bytes. -/
def isTooLong (path : Path) : Bool := 4095 < path.text.utf8ByteSize

def child (path : Path) (name : String) : Path := { path with parts := path.parts ++ [name] }

end Path

end PhpAudit
