import PhpAudit.Files.Path
import PhpAudit.Text.Quoted

/-!
Trees of files. A directory holds files, links and directories; following a path goes through
links, at most forty of them. The directory around the outermost one is taken to be empty.
-/

namespace PhpAudit

inductive FileNode where
  | file (content : List UInt8)
  | link (target : String)
  | directory (entries : List (String × FileNode))

instance : Inhabited FileNode := ⟨.directory []⟩

abbrev Directory := List (String × FileNode)

/-- Why a path cannot be followed or a file not be read. -/
inductive FileFailure where
  | missing | notDirectory | isDirectory | nameTooLong | tooManyLinks
deriving DecidableEq, Inhabited

namespace FileFailure

def number : FileFailure → Nat
  | missing => 2
  | notDirectory => 20
  | isDirectory => 21
  | nameTooLong => 36
  | tooManyLinks => 40

def reason : FileFailure → String
  | missing => "No such file or directory"
  | notDirectory => "Not a directory"
  | isDirectory => "Is a directory"
  | nameTooLong => "File name too long"
  | tooManyLinks => "Too many levels of symbolic links"

def message (failure : FileFailure) (path : Path) : String :=
  "[Errno " ++ toString failure.number ++ "] " ++ failure.reason ++ ": " ++ quoted path.text

end FileFailure

/-- A directory together with the directories around it, the innermost first. -/
structure Place where
  directory : Directory
  parents : List Directory := []

inductive Destination where
  | file (content : List UInt8)
  | directory (place : Place)

namespace Place

/-- Outside of the outermost directory nothing is known to be. -/
def outside : Place := ⟨[], []⟩

def parent (place : Place) : Place :=
  match place.parents with
  | [] => outside
  | directory :: parents => ⟨directory, parents⟩

def enter (place : Place) (entries : Directory) : Place :=
  ⟨entries, place.directory :: place.parents⟩

/-- Where a path starts, given whether it is absolute. -/
def origin (place : Place) (absolute : Bool) : Place := if absolute then outside else place

/-- Follows the parts of a path, through at most the given number of links. -/
def follow (links : Nat) (place : Place) : List String → Except FileFailure Destination
  | [] => .ok (.directory place)
  | part :: rest =>
      if part == "." then follow links place rest
      else if part == ".." then follow links place.parent rest
      else if 255 < part.utf8ByteSize then .error .nameTooLong
      else match place.directory.lookup part with
        | none => .error .missing
        | some (.directory entries) => follow links (place.enter entries) rest
        | some (.file content) => if rest.isEmpty then .ok (.file content) else .error .notDirectory
        | some (.link target) =>
            match links with
            | 0 => .error .tooManyLinks
            | remaining + 1 =>
                follow remaining (place.origin (Path.ofText target).isAbsolute)
                  (Path.linkParts target.toList ++ rest)
termination_by parts => (links, parts.length)

/-- The number of links that a path may go through. -/
def linkLimit : Nat := 40

def find (place : Place) (path : Path) : Except FileFailure Destination :=
  if path.isTooLong then .error .nameTooLong
  else (place.origin path.isAbsolute).follow linkLimit path.parts

def read (place : Place) (path : Path) : Except FileFailure (List UInt8) :=
  match place.find path with
  | .ok (.file content) => .ok content
  | .ok (.directory _) => .error .isDirectory
  | .error failure => .error failure

/-- Whether a name leads to a directory, perhaps through links. -/
def leadsToDirectory (place : Place) (name : String) : Bool :=
  match place.follow linkLimit [name] with
  | .ok (.directory _) => true
  | _ => false

end Place

namespace FileNode

/-- Puts a node at the end of a path; the directories on the way are made where they are
missing. -/
def insert (node : FileNode) : List String → Directory → Directory
  | [], entries => entries
  | [name], entries => entries.filter (fun entry => entry.1 != name) ++ [(name, node)]
  | name :: rest, entries =>
      let inner := match entries.lookup name with
        | some (.directory below) => below
        | _ => []
      entries.filter (fun entry => entry.1 != name) ++
        [(name, .directory (insert node rest inner))]

/-- The directory with the given nodes at their paths. -/
def directoryOf (nodes : List (String × FileNode)) : Directory :=
  nodes.foldl (fun entries entry => entry.2.insert (Path.ofText entry.1).parts entries) []

end FileNode

end PhpAudit
