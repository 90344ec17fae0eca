import PhpAudit.Check.Finding
import PhpAudit.Measure.Branching

/-!
Checks on how much the bodies of methods branch.
-/

namespace PhpAudit

/-- The methods whose body has a measure above the maximum, with what is said about it. -/
def methodsAbove (maximum : Int) (measure : List Stmt → Int) (advice : Int → String)
    (declaration : Declaration Expr Stmt) : List Finding :=
  declaration.methods.filterMap fun method =>
    method.body.bind fun content =>
      let value := measure content.statements
      if maximum < value then
        some ⟨method.span, "The body of " ++ method.name.value ++ " method has " ++ advice value⟩
      else none

def branchingMethods (maximum : Int) : Declaration Expr Stmt → List Finding :=
  methodsAbove maximum branchScore fun score =>
    toString score ++ " complexity. Make it easier to understand."

def methodsWithManyPaths (maximum : Int) : Declaration Expr Stmt → List Finding :=
  methodsAbove maximum (fun statements => pathCount statements) fun paths =>
    toString paths ++ " paths. Reduce the amount of paths."

end PhpAudit
