import PhpAudit.Receiver.Registry
import PhpAudit.Text.Letter

/-!
Following the types of receivers through a method body. An expression has a type when it is
`$this`, a variable whose last simple assignment had a type, a new object of a named class, or a
call on the enclosing declaration of a method whose result is known. A call on a receiver that is
not the enclosing declaration, or whose type is unknown, is a foreign call.
-/

namespace PhpAudit

/-- A method called on something other than the enclosing declaration. -/
structure ForeignCall where
  method : String
  /-- Absent when the type of the receiver is unknown. -/
  receiver : Option String
  span : Span
deriving DecidableEq, Inhabited

abbrev VariableTypes := Entries String

/-- The enclosing declaration, if there is one, and the result types of its methods. -/
structure Scope where
  current : Option String := none
  methods : MethodTypes := []

/-- The words that name the enclosing declaration or its parent. -/
def isReflexive (type : String) : Bool :=
  type == "self" || type == "static" || type == "parent"

/-- The type that a name before `::` stands for. The reflexive words are known in any case. -/
def referencedType (text : String) : String :=
  let type := canonicalType text
  let lower := lowerAscii type
  if lower == "self" || lower == "static" then "self"
  else if lower == "parent" then "parent"
  else type

namespace Scope

/-- A qualified name counts by its last part. -/
def owns (scope : Scope) (type : String) : Bool :=
  isReflexive type || scope.current == some (lastSegment type)

def isForeign (scope : Scope) : Option String → Bool
  | none => true
  | some type => !scope.owns type

/-- The type of a call; nothing is known of the methods of the parent. -/
def resultType (scope : Scope) (receiver : Option String) (method : String) : Option String :=
  match receiver with
  | none => none
  | some type =>
      if scope.owns type && type != "parent" then Entries.find? scope.methods method else none

def typeOf (scope : Scope) (types : VariableTypes) : Expr → Option String
  | .var _ name => if name == "$this" then some "self" else Entries.find? types name
  | .new _ (.name _ text) _ => some (canonicalType text)
  | .methodCall _ object method _ => scope.resultType (typeOf scope types object) method
  | .nullsafeMethodCall _ object method _ =>
      scope.resultType (typeOf scope types object) method
  | .staticMethodCall _ (.name _ text) method _ =>
      scope.resultType (some (referencedType text)) method
  | .staticMethodCall _ target method _ => scope.resultType (typeOf scope types target) method
  | _ => none

/-- The type before `::`, which is a name or any other expression. -/
def referenceType (scope : Scope) (types : VariableTypes) : Expr → Option String
  | .name _ text => some (referencedType text)
  | target => scope.typeOf types target

/-- The call itself, if it is foreign. -/
def report (scope : Scope) (receiver : Option String) (method : String) (span : Span) :
    List ForeignCall :=
  if scope.isForeign receiver then [⟨method, receiver, span⟩] else []

mutual

/-- The foreign calls in an expression: those in the receiver, those in the arguments, then the
call itself. -/
def calls (scope : Scope) (types : VariableTypes) : Expr → List ForeignCall
  | .var _ _ | .name _ _ | .literal _ _ _ | .placeholder _ => []
  | .closure _ _ _ _ _ _ _ | .arrowFunction _ _ _ _ _ _ | .anonymousClass _ _ _ _ => []
  | .indirect _ inner | .parenthesized _ inner => calls scope types inner
  | .array _ items _ => callsInItems scope types items
  | .new _ target arguments =>
      callsInArguments scope types arguments ++ calls scope types target
  | .call _ target arguments =>
      calls scope types target ++ callsInArguments scope types arguments
  | .methodCall span object method arguments =>
      calls scope types object ++ callsInArguments scope types arguments ++
        scope.report (scope.typeOf types object) method span
  | .nullsafeMethodCall span object method arguments =>
      calls scope types object ++ callsInArguments scope types arguments ++
        scope.report (scope.typeOf types object) method span
  | .staticMethodCall span target method arguments =>
      calls scope types target ++ callsInArguments scope types arguments ++
        scope.report (scope.referenceType types target) method span
  | .property _ object _ | .nullsafeProperty _ object _ => calls scope types object
  | .staticProperty _ target _ | .classConstant _ target _ => calls scope types target
  | .element _ holder index => calls scope types holder ++ callsInOption scope types index
  | .assignment _ target _ value _ => calls scope types target ++ calls scope types value
  | .binary _ left _ right => calls scope types left ++ calls scope types right
  | .unary _ _ operand _ => calls scope types operand
  | .ternary _ condition whenTrue whenFalse =>
      calls scope types condition ++ callsInOption scope types whenTrue ++
        calls scope types whenFalse
  | .yield _ key value _ =>
      callsInOption scope types key ++ callsInOption scope types value
  | .matching _ subject arms => calls scope types subject ++ callsInArms scope types arms

def callsInOption (scope : Scope) (types : VariableTypes) : Option Expr → List ForeignCall
  | none => []
  | some expression => calls scope types expression

def callsInAll (scope : Scope) (types : VariableTypes) : List Expr → List ForeignCall
  | [] => []
  | expression :: rest => calls scope types expression ++ callsInAll scope types rest

def callsInArguments (scope : Scope) (types : VariableTypes) :
    List (Argument Expr) → List ForeignCall
  | [] => []
  | argument :: rest =>
      callsInArgument scope types argument ++ callsInArguments scope types rest

def callsInArgument (scope : Scope) (types : VariableTypes) :
    Argument Expr → List ForeignCall
  | ⟨_, value, _, _⟩ => calls scope types value

def callsInItems (scope : Scope) (types : VariableTypes) :
    List (ArrayItem Expr) → List ForeignCall
  | [] => []
  | item :: rest => callsInItem scope types item ++ callsInItems scope types rest

def callsInItem (scope : Scope) (types : VariableTypes) : ArrayItem Expr → List ForeignCall
  | ⟨_, key, value, _, _⟩ => callsInOption scope types key ++ calls scope types value

def callsInArms (scope : Scope) (types : VariableTypes) :
    List (MatchArm Expr) → List ForeignCall
  | [] => []
  | arm :: rest => callsInArm scope types arm ++ callsInArms scope types rest

def callsInArm (scope : Scope) (types : VariableTypes) : MatchArm Expr → List ForeignCall
  | ⟨_, conditions, result⟩ =>
      callsInAll scope types conditions ++ calls scope types result

end

end Scope

/-- What is known at one point of a method body: the types of the variables and the foreign calls
found so far. -/
structure Tracker where
  types : VariableTypes := []
  found : List ForeignCall := []

namespace Tracker

def resolve (scope : Scope) (tracker : Tracker) (expression : Expr) : Tracker :=
  { tracker with found := tracker.found ++ scope.calls tracker.types expression }

def resolveAll (scope : Scope) (tracker : Tracker) (expressions : List Expr) : Tracker :=
  expressions.foldl (resolve scope) tracker

/-- Gives a variable a type, or forgets the one it had. -/
def setType (tracker : Tracker) (name : String) : Option String → Tracker
  | some type => { tracker with types := Entries.put tracker.types name type }
  | none => { tracker with types := Entries.erase tracker.types name }

/-- A simple assignment: the value, then the new type of the variable, then the target. -/
def assign (scope : Scope) (tracker : Tracker) (target value : Expr) : Tracker :=
  let type := scope.typeOf tracker.types value
  let resolved := tracker.resolve scope value
  let typed := match target with
    | .var _ name => resolved.setType name type
    | _ => resolved
  typed.resolve scope target

/-- An expression that is a whole statement. -/
def perform (scope : Scope) (tracker : Tracker) : Expr → Tracker
  | .assignment _ target .assign value _ => tracker.assign scope target value
  | expression => tracker.resolve scope expression

mutual

def walk (scope : Scope) (tracker : Tracker) : Stmt → Tracker
  | .expression _ value => tracker.perform scope value
  | .returnValue _ (some value) => tracker.resolve scope value
  | .echo _ values => tracker.resolveAll scope values
  | .ifElse _ condition body elseIfs otherwise =>
      walkElse scope
        (walkElseIfs scope (walkBody scope (tracker.resolve scope condition) body) elseIfs)
        otherwise
  | .whileLoop _ condition body => walkBody scope (tracker.resolve scope condition) body
  | .doWhile _ body condition => (walk scope tracker body).resolve scope condition
  | .forLoop _ initializers conditions steps body =>
      walkBody scope (tracker.resolveAll scope (initializers ++ conditions ++ steps)) body
  | .foreachLoop _ subject _ _ body _ => walkBody scope (tracker.resolve scope subject) body
  | .switch _ subject cases => walkCases scope (tracker.resolve scope subject) cases
  | .tryCatch _ content catches finallyBlock =>
      walkFinally scope (walkCatches scope (walkBlock scope tracker content) catches) finallyBlock
  | .block content => walkBlock scope tracker content
  | _ => tracker

def walkBody (scope : Scope) (tracker : Tracker) : Body Stmt → Tracker
  | .single statement => walk scope tracker statement
  | .colon _ statements => walkAll scope tracker statements

def walkBlock (scope : Scope) (tracker : Tracker) : Block Stmt → Tracker
  | ⟨_, statements⟩ => walkAll scope tracker statements

def walkElseIfs (scope : Scope) (tracker : Tracker) : List (ElseIf Expr Stmt) → Tracker
  | [] => tracker
  | clause :: rest => walkElseIfs scope (walkElseIf scope tracker clause) rest

def walkElseIf (scope : Scope) (tracker : Tracker) : ElseIf Expr Stmt → Tracker
  | ⟨_, condition, body⟩ => walkBody scope (tracker.resolve scope condition) body

def walkElse (scope : Scope) (tracker : Tracker) : Option (Else Stmt) → Tracker
  | none => tracker
  | some clause => walkElseBody scope tracker clause

def walkElseBody (scope : Scope) (tracker : Tracker) : Else Stmt → Tracker
  | ⟨_, body⟩ => walkBody scope tracker body

def walkCases (scope : Scope) (tracker : Tracker) : List (SwitchCase Expr Stmt) → Tracker
  | [] => tracker
  | clause :: rest => walkCases scope (walkCase scope tracker clause) rest

def walkCase (scope : Scope) (tracker : Tracker) : SwitchCase Expr Stmt → Tracker
  | ⟨_, condition, statements⟩ =>
      walkAll scope (tracker.resolveAll scope condition.toList) statements

def walkCatches (scope : Scope) (tracker : Tracker) : List (Catch Stmt) → Tracker
  | [] => tracker
  | clause :: rest => walkCatches scope (walkCatch scope tracker clause) rest

def walkCatch (scope : Scope) (tracker : Tracker) : Catch Stmt → Tracker
  | ⟨_, _, _, content⟩ => walkBlock scope tracker content

def walkFinally (scope : Scope) (tracker : Tracker) : Option (Block Stmt) → Tracker
  | none => tracker
  | some content => walkBlock scope tracker content

def walkAll (scope : Scope) (tracker : Tracker) : List Stmt → Tracker
  | [] => tracker
  | statement :: rest => walkAll scope (walk scope tracker statement) rest

end

end Tracker

/-- The foreign calls of a declaration, method by method. -/
def Declaration.foreignCalls (registry : TypeRegistry) (declaration : Declaration Expr Stmt) :
    List ForeignCall :=
  let scope : Scope := ⟨some declaration.name.value, registry.methodTypes declaration⟩
  declaration.methods.flatMap fun method =>
    match method.body with
    | some content => (Tracker.walkAll scope {} content.statements).found
    | none => []

mutual

/-- The foreign calls of a top-level statement. Functions and interfaces have none; a statement
outside of declarations is walked without an enclosing declaration. -/
def Stmt.foreignCalls (registry : TypeRegistry) : Stmt → List ForeignCall
  | .package _ _ statements _ => foreignCallsOf registry statements
  | .declaration ⟨_, _, .interfaceType _, _⟩ => []
  | .declaration content => content.foreignCalls registry
  | .function _ _ _ _ _ _ => []
  | statement => (Tracker.walk {} {} statement).found

def foreignCallsOf (registry : TypeRegistry) : List Stmt → List ForeignCall
  | [] => []
  | statement :: rest => statement.foreignCalls registry ++ foreignCallsOf registry rest

end

end PhpAudit
