import Mathlib.Data.List.Nodup
import PhpAudit.Audit

/-!
Which rules run, and what each of them reports. Settings never change which rules there are, and
selecting some of them takes away the violations of the others and nothing else. What a rule
reports comes in the order of the statements it looks at.
-/

namespace PhpAudit

/-- Results that tell which item they come from can be filtered before or after they are found. -/
theorem flatMap_filter_eq_filter_flatMap {Item Result : Type} (found : Item → List Result)
    {wanted : Item → Bool} {kept : Result → Bool} {items : List Item}
    (told : ∀ item ∈ items, ∀ result ∈ found item, kept result = wanted item) :
    (items.filter wanted).flatMap found = (items.flatMap found).filter kept := by
  rw [List.filter_flatMap]
  induction items with
  | nil => rfl
  | cons item rest ih =>
      obtain ⟨first, others⟩ := List.forall_mem_cons.mp told
      rw [List.flatMap_cons, ← ih others]
      cases chosen : wanted item with
      | true =>
          have all : (found item).filter kept = found item :=
            List.filter_eq_self.mpr fun result member => (first result member).trans chosen
          rw [List.filter_cons_of_pos chosen, List.flatMap_cons, all]
      | false =>
          have none : (found item).filter kept = [] := by
            refine List.filter_eq_nil_iff.mpr fun result member => ?_
            simp [first result member, chosen]
          rw [List.filter_cons_of_neg (by simp [chosen]), none, List.nil_append]

namespace Check

theorem mem_all (check : Check) : check ∈ all := by
  cases check <;> decide

theorem code_injective {first second : Check} (same : first.code = second.code) :
    first = second := by
  have distinct : (all.map code).Nodup := by decide
  exact List.inj_on_of_nodup_map distinct first.mem_all second.mem_all same

end Check

namespace Catalogue

def checks (catalogue : Catalogue) : List Check := catalogue.rules.map Rule.check

theorem checks_replace (catalogue : Catalogue) (rule : Rule) :
    (catalogue.replace rule).checks = catalogue.checks := by
  simp only [checks, replace, List.map_map]
  refine List.map_congr_left fun known _ => ?_
  simp only [Function.comp_apply]
  split
  · rename_i same
    exact (Check.code_injective (eq_of_beq same)).symm
  · rfl

theorem checks_configureRule {catalogue changed : Catalogue} {code : String} {value : Json}
    {applied : Bool} {log : Log}
    (configured : catalogue.configureRule code value = .ok (changed, applied, log)) :
    changed.checks = catalogue.checks := by
  unfold configureRule at configured
  split at configured
  · cases configured
  · cases configured
    exact checks_replace catalogue _

theorem checks_configure (catalogue : Catalogue) (settings : Entries Json) :
    (catalogue.configure settings).1.checks = catalogue.checks := by
  induction settings generalizing catalogue with
  | nil => rfl
  | cons entry rest ih =>
      obtain ⟨code, value⟩ := entry
      rw [configure]
      split
      · exact ih catalogue
      · rename_i changed applied log configured
        exact (ih changed).trans (checks_configureRule configured)

theorem all_perm (catalogue : Catalogue) : catalogue.all.Perm catalogue.rules :=
  List.mergeSort_perm catalogue.rules _

theorem all_ascending (catalogue : Catalogue) :
    catalogue.all.Pairwise fun first second => first.code ≤ second.code := by
  have sorted : catalogue.all.Pairwise fun first second =>
      decide (first.code ≤ second.code) = true := by
    refine List.pairwise_mergeSort ?_ ?_ catalogue.rules
    · intro first second third
      simpa using String.le_trans
    · intro first second
      simpa using String.le_total first.code second.code
  exact sorted.imp fun {first second} ordered => of_decide_eq_true ordered

end Catalogue

namespace Rule

theorem violations_code (rule : Rule) (file : SourceFile) :
    ∀ violation ∈ rule.violations file, violation.rule = rule.code := by
  intro violation member
  unfold violations at member
  dsimp only at member
  split at member
  · obtain ⟨finding, _, rfl⟩ := List.mem_map.mp member
    rfl
  · cases member

end Rule

namespace Audit

theorem violations_ascending (audit : Audit) (file : SourceFile)
    (sorted : audit.rules.Pairwise fun first second => first.code ≤ second.code) :
    (audit.violations file).Pairwise fun first second => first.rule ≤ second.rule := by
  refine List.pairwise_flatMap.mpr ⟨?_, ?_⟩
  · intro rule _
    refine List.pairwise_iff_forall_sublist.mpr fun {first second} both => ?_
    have firstCode := rule.violations_code file first (both.subset (by simp))
    have secondCode := rule.violations_code file second (both.subset (by simp))
    rewrite [firstCode, secondCode]
    exact String.le_refl _
  · refine sorted.imp fun {before behind} ordered first inFirst second inSecond => ?_
    rw [before.violations_code file first inFirst, behind.violations_code file second inSecond]
    exact ordered

/-- Keeping some rules keeps the violations with their codes. -/
theorem violations_filter (rules : List Rule) (file : SourceFile) (wanted : String → Bool) :
    violations ⟨rules.filter fun rule => wanted rule.code⟩ file =
      (violations ⟨rules⟩ file).filter fun violation => wanted violation.rule := by
  refine flatMap_filter_eq_filter_flatMap _ fun rule _ violation member => ?_
  rw [rule.violations_code file violation member]

end Audit

/-! The stream of a check -/

namespace Check

/-- The statements that a check looks at, in this order. -/
def stream (check : Check) (statements : List Stmt) : List Stmt :=
  match check with
  | openingTag => statements.filter fun statement => (openingTagSpan statement).isSome
  | foreignCalls => statements
  | _ => statements.flatMap Stmt.flatten

/-- What a check finds at a statement of its stream, given the number of statements before it.
Only the first opening tag counts, and only where the file is no script. -/
def findingsAt (check : Check) (settings : Settings) (file : SourceFile) (place : Nat)
    (statement : Stmt) : List Finding :=
  match check with
  | openingTag =>
      if place = 0 ∧ file.isScript = false then
        (openingTagSpan statement).toList.flatMap fun span =>
          wrongTagLine span ++ wrongTagColumn span
      else []
  | foreignCalls => callsToOthers file.types statement
  | _ => check.statementFindings settings statement

theorem misplacedTag_eq_stream (settings : Settings) (file : SourceFile) :
    misplacedTag file = (openingTag.stream file.statements).zipIdx.flatMap fun entry =>
      openingTag.findingsAt settings file entry.2 entry.1 := by
  have first : file.statements.findSome? openingTagSpan =
      (openingTag.stream file.statements).head?.bind openingTagSpan := by
    simp only [stream]
    induction file.statements with
    | nil => rfl
    | cons statement rest ih =>
        cases tag : openingTagSpan statement <;> simp [tag, ih]
  unfold misplacedTag
  rw [first]
  cases openingTag.stream file.statements with
  | nil => cases file.isScript <;> rfl
  | cons statement rest =>
      have others : ((rest.zipIdx 1).flatMap fun entry =>
          openingTag.findingsAt settings file entry.2 entry.1) = [] := by
        refine List.flatMap_eq_nil_iff.mpr fun entry member => ?_
        have behind := List.le_snd_of_mem_zipIdx member
        simp [findingsAt, show entry.2 ≠ 0 by omega]
      rw [List.zipIdx_cons, List.flatMap_cons, Nat.zero_add, others, List.append_nil]
      cases script : file.isScript with
      | true => simp [findingsAt, script]
      | false => cases tag : openingTagSpan statement <;> simp [findingsAt, script, tag]

theorem findings_eq_stream (check : Check) (settings : Settings) (file : SourceFile) :
    check.findings settings file = (check.stream file.statements).zipIdx.flatMap fun entry =>
      check.findingsAt settings file entry.2 entry.1 := by
  have numbered : ∀ (statements : List Stmt) (found : Stmt → List Finding),
      statements.flatMap found = statements.zipIdx.flatMap fun entry => found entry.1 := by
    intro statements found
    rw [← List.flatMap_map (f := Prod.fst), List.zipIdx_map_fst]
  have flattened : ∀ found : Stmt → List Finding,
      (file.statements.flatMap fun statement => statement.flatten.flatMap found) =
        (file.statements.flatMap Stmt.flatten).zipIdx.flatMap fun entry => found entry.1 := by
    intro found
    rw [← numbered, List.flatMap_assoc]
  cases check with
  | openingTag => exact misplacedTag_eq_stream settings file
  | foreignCalls => exact numbered file.statements _
  | _ =>
      simp only [findings, stream, findingsAt]
      exact flattened _

end Check

/-! Selection -/

namespace Configuration

/-- Whether the rule of a code runs: when codes are enabled, it is one of them; otherwise it is
none of the disabled ones. -/
def selects (configuration : Configuration) (code : String) : Bool :=
  if configuration.enabled = [] then code ∉ configuration.disabled
  else code ∈ configuration.enabled

/-- The rules with their settings, whether they run or not. -/
def catalogue (configuration : Configuration) : Catalogue :=
  (Catalogue.standard.configure configuration.settings).1

/-- The settings of a check. -/
def settingsOf (configuration : Configuration) (check : Check) : Settings :=
  ((configuration.catalogue.find? check.code).bind Rule.settings).getD []

theorem catalogue_checks (configuration : Configuration) :
    configuration.catalogue.checks = Check.all := by
  have kept := Catalogue.standard.checks_configure configuration.settings
  refine kept.trans ?_
  simp [Catalogue.checks, Catalogue.standard, Rule.ofCheck, Function.comp_def]

/-- There is exactly one rule of each check. -/
theorem exists_rule (configuration : Configuration) (check : Check) :
    ∃ rule, configuration.catalogue.find? check.code = some rule ∧ rule.check = check ∧
      configuration.catalogue.all.filter (fun known => known.code == check.code) = [rule] := by
  have ofChecks : ((configuration.catalogue.rules.filter fun known => known.code == check.code).map
      Rule.check) = Check.all.filter fun known => known.code == check.code := by
    rw [← configuration.catalogue_checks, Catalogue.checks, List.filter_map]
    rfl
  have single : (Check.all.filter fun known => known.code == check.code) = [check] := by
    cases check <;> rfl
  obtain ⟨rule, only, same⟩ := List.map_eq_singleton_iff.mp (ofChecks.trans single)
  refine ⟨rule, ?_, same, ?_⟩
  · rw [Catalogue.find?, ← List.head?_filter, only, List.head?_cons]
  · have sorted := configuration.catalogue.all_perm.filter fun known => known.code == check.code
    rw [only] at sorted
    exact List.perm_singleton.mp sorted

theorem prepare_rules (configuration : Configuration) :
    (Audit.prepare configuration).1.rules =
      configuration.catalogue.all.filter fun rule => configuration.selects rule.code := by
  simp only [Audit.prepare, catalogue, Catalogue.selected]
  congr 1
  funext rule
  unfold selects
  cases configuration.enabled <;> simp

theorem selects_unrestricted (configuration : Configuration) (code : String) :
    { configuration with enabled := [], disabled := [] : Configuration }.selects code = true := by
  simp [selects]

end Configuration

namespace Audit

theorem prepare_violations (configuration : Configuration) (file : SourceFile) :
    (prepare configuration).1.violations file =
      (violations ⟨configuration.catalogue.all⟩ file).filter fun violation =>
        configuration.selects violation.rule := by
  rw [← violations_filter, ← configuration.prepare_rules]

theorem prepare_violations_of_check (configuration : Configuration) (file : SourceFile)
    (check : Check) :
    ((prepare configuration).1.violations file).filter
        (fun violation => violation.rule == check.code) =
      if configuration.selects check.code ∧ check.applies (configuration.settingsOf check) file then
        (check.findings (configuration.settingsOf check) file).map (file.violation check.code)
      else [] := by
  obtain ⟨rule, found, same, single⟩ := configuration.exists_rule check
  have settings : configuration.settingsOf check = rule.settings.getD [] := by
    simp [Configuration.settingsOf, found]
  have ofRule : (violations ⟨configuration.catalogue.all⟩ file).filter
      (fun violation => violation.rule == check.code) = rule.violations file := by
    rw [← violations_filter _ _ (· == check.code), single, violations, List.flatMap_singleton]
  have decided : ∀ violation : Violation,
      (violation.rule == check.code && configuration.selects violation.rule) =
        (configuration.selects check.code && violation.rule == check.code) := by
    intro violation
    by_cases coded : violation.rule = check.code
    · simp [coded]
    · have differs : (violation.rule == check.code) = false := beq_eq_false_iff_ne.mpr coded
      simp [differs]
  rw [prepare_violations, List.filter_filter, settings, List.filter_congr fun v _ => decided v]
  by_cases chosen : configuration.selects check.code = true
  · subst same
    simp only [chosen, Bool.true_and, true_and, ofRule]
    rfl
  · simp [chosen]

/-- Selecting rules filters the violations of all rules by their codes, which ascend. Those of one
rule are what it finds at the statements of its stream one after the other, whichever other rules
run. -/
theorem violations_of_selection (configuration : Configuration) (file : SourceFile) :
    let all := (prepare { configuration with enabled := [], disabled := [] }).1.violations file
    let found := (prepare configuration).1.violations file
    found = all.filter (fun violation => configuration.selects violation.rule) ∧
      (found.Pairwise fun first second => first.rule ≤ second.rule) ∧
      ∀ check : Check, found.filter (fun violation => violation.rule == check.code) =
        if configuration.selects check.code ∧
            check.applies (configuration.settingsOf check) file then
          ((check.stream file.statements).zipIdx.flatMap fun entry =>
            check.findingsAt (configuration.settingsOf check) file entry.2 entry.1).map
              (file.violation check.code)
        else [] := by
  intro all found
  have allEq : all = violations ⟨configuration.catalogue.all⟩ file := by
    have unrestricted := prepare_violations
      { configuration with enabled := [], disabled := [] } file
    simp only [Configuration.selects_unrestricted, List.filter_true] at unrestricted
    exact unrestricted
  refine ⟨?_, ?_, ?_⟩
  · rw [allEq]
    exact prepare_violations configuration file
  · refine violations_ascending _ file ?_
    rw [configuration.prepare_rules]
    exact configuration.catalogue.all_ascending.filter _
  · intro check
    rw [← check.findings_eq_stream]
    exact prepare_violations_of_check configuration file check

end Audit

end PhpAudit
