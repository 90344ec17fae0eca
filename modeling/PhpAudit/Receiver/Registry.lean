import PhpAudit.Entries
import PhpAudit.Tree.Basic

/-!
The types that a file declares, each with the result types of its methods. A result type is known
when the hint is a plain name or one of the words `self`, `static` and `parent`, perhaps with a
question mark; any other hint counts as unknown and is left out. Type names stand without the
backslashes at their start.
-/

namespace PhpAudit

/-- A type name without the backslashes at its start. -/
def canonicalType (name : String) : String :=
  String.ofList (name.toList.dropWhile (· == '\\'))

/-- The part of a qualified name after its last backslash. -/
def lastSegment (name : String) : String :=
  String.ofList (name.toList.reverse.takeWhile (· != '\\')).reverse

/-- The type that a hint names, if it names one. -/
def Hint.typeName : Hint → Option String
  | nullable _ inner => inner.typeName
  | keyword _ word => some word
  | named _ text => some (canonicalType text)
  | builtin _ _ | union _ _ | intersection _ _ => none

abbrev MethodTypes := Entries String

namespace Declaration

/-- The result types of the methods themselves; the last of several methods of one name counts. -/
def ownTypes (declaration : Declaration Expr Stmt) : MethodTypes :=
  declaration.methods.foldl (fun types method =>
    match method.returnHint.bind Hint.typeName with
    | some result => Entries.put types method.name.value result
    | none => types) []

def declaresMethod (declaration : Declaration Expr Stmt) (method : String) : Bool :=
  declaration.methods.any fun own => own.name.value == method

/-- The names of the used traits in the order of their mention. -/
def traitNames (declaration : Declaration Expr Stmt) : List String :=
  declaration.members.flatMap fun
    | .traits _ names => names
    | _ => []

end Declaration

mutual

/-- The declarations of a statement: itself, or those directly or deeper in a namespace. -/
def Stmt.declarations : Stmt → List (Declaration Expr Stmt)
  | .package _ _ statements _ => declarationsOf statements
  | .declaration content => [content]
  | _ => []

def declarationsOf : List Stmt → List (Declaration Expr Stmt)
  | [] => []
  | statement :: rest => statement.declarations ++ declarationsOf rest

end

/-- The declared types of a file by name; the last of several of one name counts. -/
structure TypeRegistry where
  types : Entries MethodTypes := []

namespace TypeRegistry

def ofStatements (statements : List Stmt) : TypeRegistry :=
  ⟨(declarationsOf statements).foldl (fun types declaration =>
    Entries.put types declaration.name.value declaration.ownTypes) []⟩

def contains (registry : TypeRegistry) (name : String) : Bool :=
  Entries.contains registry.types name

def size (registry : TypeRegistry) : Nat := registry.types.length

def names (registry : TypeRegistry) : List String :=
  (Entries.keys registry.types).mergeSort fun first second => decide (first ≤ second)

/-- The methods of a type. A qualified name that is not registered stands for its last part. -/
def get? (registry : TypeRegistry) (name : String) : Option MethodTypes :=
  match Entries.find? registry.types name with
  | some methods => some methods
  | none =>
      if name.toList.contains '\\' then Entries.find? registry.types (lastSegment name) else none

/-- Adds the methods of a trait that are neither declared by the user itself nor known already. -/
def mergeTrait (declaration : Declaration Expr Stmt) (known methods : MethodTypes) : MethodTypes :=
  methods.foldl (fun merged entry =>
    if declaration.declaresMethod entry.1 || Entries.contains merged entry.1 then merged
    else Entries.put merged entry.1 entry.2) known

/-- The result types of a declaration together with those of its traits. The name of the
declaration itself becomes `self`. -/
def methodTypes (registry : TypeRegistry) (declaration : Declaration Expr Stmt) : MethodTypes :=
  let merged := declaration.traitNames.foldl (fun known trait =>
    match registry.get? (canonicalType trait) with
    | some methods => mergeTrait declaration known methods
    | none => known) declaration.ownTypes
  merged.map fun entry =>
    (entry.1, if entry.2 == declaration.name.value then "self" else entry.2)

end TypeRegistry

end PhpAudit
