import PhpAudit.Files.Tree

/-!
Finding PHP files. All files of a directory come before those of its subdirectories, both in
ascending order of their names. Links to directories are not entered.
-/

namespace PhpAudit

def sortByName {Value : Type} (entries : List (String × Value)) : List (String × Value) :=
  entries.mergeSort fun first second => decide (first.1 ≤ second.1)

def isPhpName (name : String) : Bool := ['.', 'p', 'h', 'p'].isSuffixOf name.toList

/-- The entries of a directory that are PHP files. Whether a link leads to a directory cannot be
told when its path is too long. -/
def Place.phpEntries (place : Place) (path : Path) : List (String × FileNode) :=
  sortByName (place.directory.filter fun entry =>
    isPhpName entry.1 && !isDirectory entry)
where
  isDirectory (entry : String × FileNode) : Bool :=
    match entry.2 with
    | .directory _ => true
    | .file _ => false
    | .link _ => !(path.child entry.1).isTooLong && place.leadsToDirectory entry.1

/-- The PHP files of a directory, before those found below its subdirectories. A directory whose
path is too long cannot be listed. -/
def Place.assemble (place : Place) (path : Path) (below : List (String × List Path)) : List Path :=
  if path.isTooLong then []
  else (place.phpEntries path).map (fun entry => path.child entry.1) ++
    (sortByName below).flatMap Prod.snd

mutual

/-- What is found below an entry, if it is a subdirectory of the place. -/
def foundBelow (place : Place) (path : Path) (name : String) :
    FileNode → List (String × List Path)
  | .directory entries =>
      let inner := place.enter entries
      let innerPath := path.child name
      [(name, inner.assemble innerPath (foundBelowAll inner innerPath entries))]
  | .file _ | .link _ => []

def foundBelowEntry (place : Place) (path : Path) :
    String × FileNode → List (String × List Path)
  | (name, node) => foundBelow place path name node

def foundBelowAll (place : Place) (path : Path) :
    List (String × FileNode) → List (String × List Path)
  | [] => []
  | entry :: rest => foundBelowEntry place path entry ++ foundBelowAll place path rest

end

/-- The PHP files in and below a directory. -/
def Place.phpFiles (place : Place) (path : Path) : List Path :=
  place.assemble path (foundBelowAll place path place.directory)

/-- The files that a path stands for: itself if it is a file, and otherwise the PHP files below. -/
def Place.discover (place : Place) (path : Path) : List Path :=
  match place.find path with
  | .ok (.file _) => [path]
  | .ok (.directory found) => found.phpFiles path
  | .error _ => []

end PhpAudit
