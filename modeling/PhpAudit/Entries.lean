/-!
Look-up tables by text that keep the order in which their keys first appeared.
-/

namespace PhpAudit

/-- Entries in the order in which their keys first appeared. -/
abbrev Entries (Value : Type) := List (String × Value)

namespace Entries

def find? {Value : Type} (entries : Entries Value) (key : String) : Option Value :=
  List.lookup key entries

def contains {Value : Type} (entries : Entries Value) (key : String) : Bool :=
  (find? entries key).isSome

/-- A new key goes to the end; a present one keeps its place and takes the new value. -/
def put {Value : Type} (entries : Entries Value) (key : String) (value : Value) : Entries Value :=
  match entries with
  | [] => [(key, value)]
  | (known, old) :: rest =>
      if known == key then (known, value) :: rest else (known, old) :: put rest key value

def erase {Value : Type} (entries : Entries Value) (key : String) : Entries Value :=
  List.filter (fun entry => entry.1 != key) entries

def keys {Value : Type} (entries : Entries Value) : List String := List.map Prod.fst entries

def ofList {Value : Type} (pairs : List (String × Value)) : Entries Value :=
  pairs.foldl (fun entries pair => put entries pair.1 pair.2) []

end Entries

end PhpAudit
