import PhpAudit.Entries

/-!
JSON values. Whole numbers have any size and are kept apart from floats; the entries of an
object keep the order in which their names first appeared.
-/

namespace PhpAudit

inductive Json where
  | null
  | bool (value : Bool)
  | int (value : Int)
  | float (value : Float)
  | text (value : String)
  | list (items : List Json)
  | object (entries : List (String × Json))

instance : Inhabited Json := ⟨.null⟩

namespace Json

/-- The word for the kind of a value in messages. -/
def kindName : Json → String
  | null => "NoneType"
  | bool _ => "bool"
  | int _ => "int"
  | float _ => "float"
  | text _ => "str"
  | list _ => "list"
  | object _ => "dict"

def texts (values : List String) : Json := .list (values.map .text)

end Json

end PhpAudit
