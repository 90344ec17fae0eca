import PhpAudit.Files.Discovery
import PhpAudit.Proofs.EntryTables

/-!
Which files are found below a directory, and in which order. Everything that has the name of a PHP
file and is not known to be a directory is found once, whether it can be read or not. The files of a
directory come before those of its subdirectories, and both in ascending order of their names, which
is not the order of the whole paths.
-/

namespace PhpAudit

/-- Every directory in the tree gives its entries different names. -/
inductive FileNode.WellNamed : FileNode → Prop
  | file (content : List UInt8) : WellNamed (.file content)
  | link (target : String) : WellNamed (.link target)
  | directory {entries : Directory} (distinct : (entries.map Prod.fst).Nodup)
      (inside : ∀ entry ∈ entries, WellNamed entry.2) : WellNamed (.directory entries)

namespace Place

/-- The entry is a file, or a link of which it is not known that it leads to a directory. -/
inductive TakenForFile (place : Place) (path : Path) : String × FileNode → Prop
  | file (name : String) (content : List UInt8) : TakenForFile place path (name, .file content)
  | elsewhere {name : String} (target : String)
      (away : ∀ inner, place.follow linkLimit [name] ≠ .ok (.directory inner)) :
      TakenForFile place path (name, .link target)
  | unknown {name : String} (target : String) (long : (path.child name).isTooLong = true) :
      TakenForFile place path (name, .link target)

/-- A file with the name of a PHP file stands in the directory, which has the given path, or below
it. Only directories whose path is not too long can be listed. -/
inductive HasPhpFile : Place → Path → Path → Prop
  | here {place : Place} {path : Path} {name : String} {node : FileNode}
      (listable : path.isTooLong = false) (member : (name, node) ∈ place.directory)
      (named : isPhpName name = true) (taken : TakenForFile place path (name, node)) :
      HasPhpFile place path (path.child name)
  | nested {place : Place} {path file : Path} {name : String} {inner : Directory}
      (listable : path.isTooLong = false) (member : (name, .directory inner) ∈ place.directory)
      (found : HasPhpFile (place.enter inner) (path.child name) file) :
      HasPhpFile place path file

end Place

/-- The order in which files are found, by the parts of their paths. -/
inductive FoundBefore : List String → List String → Prop
  | files {first second : String} (smaller : first < second) : FoundBefore [first] [second]
  | fileFirst {first second : String} {deeper : List String} (below : deeper ≠ []) :
      FoundBefore [first] (second :: deeper)
  | directories {first second : String} {inFirst inSecond : List String} (smaller : first < second)
      (belowFirst : inFirst ≠ []) (belowSecond : inSecond ≠ []) :
      FoundBefore (first :: inFirst) (second :: inSecond)
  | inside {name : String} {first second : List String} (before : FoundBefore first second) :
      FoundBefore (name :: first) (name :: second)

namespace FoundBefore

theorem append_left {first second : List String} (before : FoundBefore first second)
    (outer : List String) : FoundBefore (outer ++ first) (outer ++ second) := by
  induction outer with
  | nil => exact before
  | cons name rest ih => exact .inside ih

end FoundBefore

/-! Sorting by name -/

section Sorting

variable {Value : Type}

end Sorting

/-! One directory -/

namespace Place

end Place

end PhpAudit
