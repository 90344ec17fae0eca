import PhpAudit.Check.Structure

/-!
Services that change their own state. An instance of a service lives on between requests, so a
method other than the constructor must not write to a property of `$this` or to a static
property. Classes with an interface for being reset are left alone.
-/

namespace PhpAudit

def occursIn (part : List Char) : List Char → Bool
  | [] => part.isEmpty
  | whole@(_ :: rest) => part.isPrefixOf whole || occursIn part rest

/-- A name is excluded when an excluded text occurs in it; otherwise one of the included texts has
to occur in it, if there are any. -/
def selectsName (included excluded : List String) : Option String → Bool
  | none => false
  | some name =>
      let occurs := fun (part : String) => occursIn part.toList name.toList
      !excluded.any occurs && (included.isEmpty || included.any occurs)

def writtenState (target : Expr) : Option Finding :=
  match target.withoutElements with
  | .property span object _ =>
      if object.isThis then
        some ⟨span, "Properties in service must be immutable. Violating Shared Memory Model."⟩
      else none
  | .staticProperty span _ _ =>
      some ⟨span, "Static properties in service must be immutable. Violating Shared Memory Model."⟩
  | _ => none

def writesIn (expression : Expr) : List Finding :=
  expression.walk.filterMap fun part => part.mutatedTarget.bind writtenState

def writesInStatement (statement : Stmt) : List Finding :=
  statement.flatten.flatMap fun inner => inner.ownExpressions.flatMap writesIn

def Method.stateWrites (method : Method Expr Stmt) : List Finding :=
  match method.body with
  | some content => if method.isConstructor then [] else writesInStatement (.block content)
  | none => []

def stateWrites (resetInterfaces : List String) (declaration : Declaration Expr Stmt) :
    List Finding :=
  match declaration.kind with
  | .classType _ _ interfaces =>
      if interfaces.any fun name => resetInterfaces.contains (lastSegment name) then []
      else declaration.methods.flatMap Method.stateWrites
  | _ => []

end PhpAudit
