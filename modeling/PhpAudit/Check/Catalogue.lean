import PhpAudit.Check.Rule

/-!
A catalogue of rules by code. Rules are listed, configured and selected in it.
-/

namespace PhpAudit

structure Catalogue where
  /-- The rules in the order of their registration. -/
  rules : List Rule := []

inductive CatalogueError where
  | registered (code : String)
  | unknown (code : String)
deriving DecidableEq, Inhabited

def CatalogueError.message : CatalogueError → String
  | registered code => "Rule " ++ code ++ " is already registered"
  | unknown code => "Unknown rule " ++ code

namespace Catalogue

def find? (catalogue : Catalogue) (code : String) : Option Rule :=
  catalogue.rules.find? fun rule => rule.code == code

def contains (catalogue : Catalogue) (code : String) : Bool := (catalogue.find? code).isSome

def size (catalogue : Catalogue) : Nat := catalogue.rules.length

def register (catalogue : Catalogue) (rule : Rule) : Except CatalogueError Catalogue :=
  if catalogue.contains rule.code then .error (.registered rule.code)
  else .ok ⟨catalogue.rules ++ [rule]⟩

def get (catalogue : Catalogue) (code : String) : Except CatalogueError Rule :=
  match catalogue.find? code with
  | some rule => .ok rule
  | none => .error (.unknown code)

def standard : Catalogue := ⟨Check.all.map Rule.ofCheck⟩

/-- The rules in ascending order of their codes. -/
def all (catalogue : Catalogue) : List Rule :=
  catalogue.rules.mergeSort fun first second => decide (first.code ≤ second.code)

def codes (catalogue : Catalogue) : List String := catalogue.all.map Rule.code

def replace (catalogue : Catalogue) (rule : Rule) : Catalogue :=
  ⟨catalogue.rules.map fun known => if known.code == rule.code then rule else known⟩

/-- Configures one rule. The result also says whether the settings were taken over. -/
def configureRule (catalogue : Catalogue) (code : String) (value : Json) :
    Except CatalogueError (Catalogue × Bool × Log) :=
  match catalogue.get code with
  | .error error => .error error
  | .ok rule =>
      let (configured, applied, log) := rule.configure value
      .ok (catalogue.replace configured, applied, log)

/-- Configures the rules named in a section of settings; other names give a warning. -/
def configure (catalogue : Catalogue) : Entries Json → Catalogue × Log
  | [] => (catalogue, [])
  | (code, value) :: rest =>
      match catalogue.configureRule code value with
      | .error _ =>
          let (configured, log) := catalogue.configure rest
          (configured, ⟨.warning, .rules, "Settings given for unknown rule " ++ code⟩ :: log)
      | .ok (changed, _, first) =>
          let (configured, log) := changed.configure rest
          (configured, first ++ log)

def unknownCodes (catalogue : Catalogue) (codes : List String) : Log :=
  (codes.filter fun code => !catalogue.contains code).map fun code =>
    ⟨.warning, .rules, "Unknown rule code " ++ code ++ " in configuration"⟩

/-- The rules to run. If any codes are enabled, they alone are; otherwise all but the disabled
ones. -/
def selected (catalogue : Catalogue) (enabled disabled : List String) : List Rule :=
  catalogue.all.filter fun rule =>
    if enabled.isEmpty then !disabled.contains rule.code else enabled.contains rule.code

end Catalogue

end PhpAudit
