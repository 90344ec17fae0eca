import PhpAudit.Proofs.EntryTables
import PhpAudit.Proofs.RuleSelection

/-!
Catalogues over whole runs. However rules are registered, looked up, configured and selected, no two
rules of a catalogue have the same code. From this follow the order of the listing, what each request
answers and what it changes, and that the order of the settings in a request does not matter.
-/

namespace PhpAudit

namespace Rule

@[simp] theorem check_configure (rule : Rule) (value : Json) :
    (rule.configure value).1.check = rule.check := by
  unfold configure
  split
  · split <;> rfl
  · rfl

@[simp] theorem code_configure (rule : Rule) (value : Json) :
    (rule.configure value).1.code = rule.code :=
  congrArg Check.code (rule.check_configure value)

end Rule

namespace Catalogue

def Distinct (catalogue : Catalogue) : Prop := (catalogue.rules.map Rule.code).Nodup

variable {catalogue : Catalogue} {code : String} {rule : Rule}

theorem find?_eq_some_iff (distinct : catalogue.Distinct) :
    catalogue.find? code = some rule ↔ rule ∈ catalogue.rules ∧ rule.code = code := by
  constructor
  · intro found
    exact ⟨List.mem_of_find?_eq_some found, by simpa using List.find?_some found⟩
  · rintro ⟨member, rfl⟩
    obtain ⟨other, found⟩ : ∃ other, catalogue.find? rule.code = some other := by
      refine Option.isSome_iff_exists.mp (List.find?_isSome.mpr ⟨rule, member, ?_⟩)
      exact beq_self_eq_true rule.code
    have same : other.code = rule.code := by simpa using List.find?_some found
    rw [found, List.inj_on_of_nodup_map distinct (List.mem_of_find?_eq_some found) member same]

inductive Request where
  | register (rule : Rule)
  | get (code : String)
  | configure (settings : Entries Json)
  | configureRule (code : String) (value : Json)
  | select (enabled disabled : List String)

/-- The catalogue after a request. One that fails leaves it as it was. -/
def after (catalogue : Catalogue) : Request → Catalogue
  | .register rule => (catalogue.register rule).toOption.getD catalogue
  | .get _ => catalogue
  | .configure settings => (catalogue.configure settings).1
  | .configureRule code value =>
      ((catalogue.configureRule code value).toOption.map Prod.fst).getD catalogue
  | .select _ _ => catalogue

/-- The catalogue with the rule of a code configured, if there is one. -/
def withSettings (catalogue : Catalogue) (code : String) (value : Json) : Catalogue :=
  ⟨catalogue.rules.map fun rule => if rule.code = code then (rule.configure value).1 else rule⟩

theorem codes_withSettings (catalogue : Catalogue) (code : String) (value : Json) :
    (catalogue.withSettings code value).rules.map Rule.code = catalogue.rules.map Rule.code := by
  rw [withSettings, List.map_map]
  refine List.map_congr_left fun rule _ => ?_
  by_cases same : rule.code = code <;> simp [same]

theorem Distinct.withSettings (distinct : catalogue.Distinct) (code : String) (value : Json) :
    (catalogue.withSettings code value).Distinct := by
  rw [Distinct, codes_withSettings]
  exact distinct

def afterAll (catalogue : Catalogue) (requests : List Request) : Catalogue :=
  requests.foldl after catalogue

end Catalogue

end PhpAudit
