import PhpAudit.Proofs.ScopeIsolation

/-!
The qualified name of a file, compared with the declarations that stand at its top level or directly
in one of its namespaces. Only these count: the name is missing exactly when there are none, and else
it consists of the name of the first of them behind the name of the first named namespace, which need
not be the namespace that holds the declaration.
-/

namespace PhpAudit

namespace Entries

variable {Value : Type}

theorem contains_cons (known key : String) (value : Value) (rest : Entries Value) :
    contains ((known, value) :: rest) key = (key == known || contains rest key) := by
  simp only [contains, find?, List.lookup_cons]
  cases key == known <;> rfl

theorem contains_put (entries : Entries Value) (key other : String) (value : Value) :
    contains (put entries key value) other = (other == key || contains entries other) := by
  induction entries with
  | nil => exact contains_cons key other value []
  | cons entry rest ih =>
      obtain ⟨known, old⟩ := entry
      unfold put
      split
      · rename_i present
        rw [contains_cons, contains_cons, beq_iff_eq.mp present, ← Bool.or_assoc, Bool.or_self]
      · rw [contains_cons, contains_cons, ih, Bool.or_left_comm]

theorem put_ne_nil (entries : Entries Value) (key : String) (value : Value) :
    put entries key value ≠ [] := by
  cases entries with
  | nil => exact List.cons_ne_nil _ _
  | cons entry rest =>
      unfold put
      split <;> exact List.cons_ne_nil _ _

variable {Item : Type} (name : Item → String) (result : Item → Value) (items : List Item)

theorem contains_foldl_put (entries : Entries Value) (key : String) :
    contains (items.foldl (fun known item => put known (name item) (result item)) entries) key =
      true ↔ contains entries key = true ∨ ∃ item ∈ items, name item = key := by
  induction items generalizing entries with
  | nil => simp
  | cons item rest ih =>
      rw [List.foldl_cons, ih, contains_put, Bool.or_eq_true, beq_iff_eq]
      constructor
      · rintro ((first | present) | ⟨later, member, same⟩)
        · exact .inr ⟨item, List.mem_cons_self, first.symm⟩
        · exact .inl present
        · exact .inr ⟨later, List.mem_cons_of_mem item member, same⟩
      · rintro (present | ⟨found, member, same⟩)
        · exact .inl (.inr present)
        · rcases List.mem_cons.mp member with first | later
          · exact .inl (.inl (first ▸ same.symm))
          · exact .inr ⟨found, later, same⟩

theorem foldl_put_eq_nil_iff (entries : Entries Value) :
    items.foldl (fun known item => put known (name item) (result item)) entries = [] ↔
      entries = [] ∧ items = [] := by
  induction items generalizing entries with
  | nil => simp
  | cons item rest ih => simp [ih, put_ne_nil]

end Entries

namespace TypeRegistry

theorem contains_ofStatements (statements : List Stmt) (name : String) :
    (ofStatements statements).contains name = true ↔
      ∃ content ∈ declarationsOf statements, content.name.value = name := by
  rw [contains, ofStatements, Entries.contains_foldl_put]
  simp [Entries.contains, Entries.find?]

theorem size_ofStatements (statements : List Stmt) :
    (ofStatements statements).size = 0 ↔ declarationsOf statements = [] := by
  rw [size, ofStatements, List.length_eq_zero_iff, Entries.foldl_put_eq_nil_iff]
  exact and_iff_right rfl

end TypeRegistry

namespace Stmt

/-- The name of a named namespace. -/
def packageLabel : Stmt → Option String
  | .package _ (some name) _ _ => if name.isEmpty then none else some (canonicalType name)
  | _ => none

def declaration? : Stmt → Option (Declaration Expr Stmt)
  | .declaration content => some content
  | _ => none

/-- What a statement at the top level puts at the outer levels: itself, or the content of a
namespace. -/
def outerStatements : Stmt → List Stmt
  | .package _ _ statements _ => statements
  | statement => [statement]

def outerDeclarations (statement : Stmt) : List (Declaration Expr Stmt) :=
  statement.outerStatements.filterMap declaration?

theorem mem_declarations_of_declaration? {statement : Stmt} {content : Declaration Expr Stmt}
    (found : statement.declaration? = some content) : content ∈ statement.declarations := by
  cases statement with
  | declaration own =>
      cases found
      exact List.mem_singleton_self content
  | _ => cases found

theorem mem_declarations_of_outer {statement : Stmt} {content : Declaration Expr Stmt}
    (member : content ∈ statement.outerDeclarations) : content ∈ statement.declarations := by
  obtain ⟨inner, inside, found⟩ := List.mem_filterMap.mp member
  have declared := mem_declarations_of_declaration? found
  cases statement with
  | package span name statements braced =>
      rw [declarations, declarationsOf_eq_flatMap]
      exact List.mem_flatMap.mpr ⟨inner, inside, declared⟩
  | _ =>
      cases List.mem_singleton.mp inside
      exact declared

/-- Where no namespace stands in another one, every declaration of a namespace is an outer one. -/
theorem outerDeclarations_eq (statement : Stmt)
    (flat : statement.isPackage = true → ∀ inner ∈ statement.children, inner.isPackage = false) :
    statement.outerDeclarations = statement.declarations := by
  have plain : ∀ inner : Stmt, inner.isPackage = false →
      inner.declaration?.toList = inner.declarations := by
    intro inner notPackage
    cases inner with
    | package => cases notPackage
    | _ => rfl
  cases statement with
  | package span name statements braced =>
      rw [declarations, declarationsOf_eq_flatMap, outerDeclarations,
        List.filterMap_eq_flatMap_toList]
      exact List.flatMap_congr fun inner inside => plain inner (flat rfl inner inside)
  | _ => rfl

theorem sublist_flatMap_flatten (statements : List Stmt) :
    statements.Sublist (statements.flatMap flatten) := by
  induction statements with
  | nil => exact List.Sublist.slnil
  | cons statement rest ih =>
      rw [List.flatMap_cons, flatten_eq, List.cons_append]
      exact (ih.trans (List.sublist_append_right _ _)).cons_cons statement

theorem declared_sublist (statements : List Stmt) :
    ((statements.filterMap declaration?).map Stmt.declaration).Sublist statements := by
  induction statements with
  | nil => exact List.Sublist.slnil
  | cons statement rest ih =>
      cases statement with
      | declaration content => exact ih.cons_cons _
      | _ => exact ih.cons _

/-- The outer declarations stand in the order of the flattening. -/
theorem outerDeclarations_sublist (statement : Stmt) :
    (statement.outerDeclarations.map Stmt.declaration).Sublist statement.flatten := by
  refine (declared_sublist statement.outerStatements).trans ?_
  rw [flatten_eq]
  cases statement with
  | package span name statements braced => exact (sublist_flatMap_flatten statements).cons _
  | _ => exact (List.nil_sublist _).cons_cons _

end Stmt

namespace SourceFile

/-- The outer declarations in document order, each with the name of the namespace that holds it. -/
def outerDeclarations (file : SourceFile) : List (Option String × Declaration Expr Stmt) :=
  file.statements.flatMap fun statement =>
    statement.outerDeclarations.map fun content => (statement.packageLabel, content)

/-- The names of the named namespaces at the top level. -/
def packages (file : SourceFile) : List String := file.statements.filterMap Stmt.packageLabel

/-- The name of a declaration in a namespace. -/
def qualified (package : Option String) (name : String) : String :=
  match package with
  | none => name
  | some package => package ++ "\\" ++ name

theorem packageName_eq_head? (file : SourceFile) : file.packageName = file.packages.head? := by
  rw [packages, List.head?_filterMap]
  rfl

theorem findSome?_declaredName (statements : List Stmt) :
    statements.findSome? declaredName =
      ((statements.filterMap Stmt.declaration?).head?).map fun content => content.name.value := by
  rw [List.head?_filterMap, List.map_findSome?]
  congr 1
  funext statement
  cases statement <;> rfl

theorem typeName_eq_head? (file : SourceFile) :
    file.typeName = (file.outerDeclarations.head?).map fun entry => entry.2.name.value := by
  rw [outerDeclarations, List.head?_flatMap, List.map_findSome?, typeName]
  congr 1
  funext statement
  have outer : statement.outerStatements.findSome? declaredName =
      ((statement.outerDeclarations.map fun content =>
        (statement.packageLabel, content)).head?).map fun entry => entry.2.name.value := by
    rw [findSome?_declaredName, List.head?_map, Option.map_map]
    rfl
  refine Eq.trans ?_ outer
  cases statement <;> rfl

theorem qualifiedName_eq_map (file : SourceFile) :
    file.qualifiedName = (file.outerDeclarations.head?).map fun entry =>
      qualified file.packages.head? entry.2.name.value := by
  rw [qualifiedName, typeName_eq_head?, packageName_eq_head?]
  cases file.outerDeclarations with
  | nil => rfl
  | cons first rest => cases file.packages.head? <;> rfl

theorem qualified_left_inj (first second : Option String) (name : String) :
    qualified first name = qualified second name ↔ first = second := by
  have longer : ∀ package : String, package ++ "\\" ++ name ≠ name := by
    intro package same
    have size := congrArg String.length same
    simp only [String.length_append] at size
    have mark : "\\".length = 1 := by decide
    omega
  constructor
  · intro same
    cases first with
    | none =>
        cases second with
        | none => rfl
        | some package => exact absurd same.symm (longer package)
    | some package =>
        cases second with
        | none => exact absurd same (longer package)
        | some other =>
            have letters := congrArg String.toList same
            simp only [qualified, String.toList_append, List.append_assoc] at letters
            exact congrArg some (String.toList_inj.mp (List.append_cancel_right letters))
  · exact congrArg fun package => qualified package name

theorem mem_declarationsOf_of_outer {file : SourceFile} {home : Option String}
    {content : Declaration Expr Stmt} (outer : (home, content) ∈ file.outerDeclarations) :
    content ∈ declarationsOf file.statements := by
  obtain ⟨statement, inside, member⟩ := List.mem_flatMap.mp outer
  obtain ⟨own, found, same⟩ := List.mem_map.mp member
  cases same
  rw [declarationsOf_eq_flatMap]
  exact List.mem_flatMap.mpr ⟨statement, inside, Stmt.mem_declarations_of_outer found⟩

theorem outerDeclarations_contents (file : SourceFile) :
    file.outerDeclarations.map Prod.snd = file.statements.flatMap Stmt.outerDeclarations := by
  rw [outerDeclarations, List.map_flatMap]
  apply List.flatMap_congr
  intro statement _
  rw [List.map_map]
  exact List.map_id _

/-- Where no namespace stands in another one, all declared types are outer declarations. -/
theorem outerDeclarations_eq_declarationsOf (file : SourceFile)
    (flat : ∀ statement ∈ file.statements, statement.isPackage = true →
      ∀ inner ∈ statement.children, inner.isPackage = false) :
    file.outerDeclarations.map Prod.snd = declarationsOf file.statements := by
  rw [outerDeclarations_contents, declarationsOf_eq_flatMap]
  apply List.flatMap_congr
  intro statement member
  exact statement.outerDeclarations_eq (flat statement member)

theorem outerDeclarations_ordered (file : SourceFile) :
    (file.outerDeclarations.map fun entry => Stmt.declaration entry.2).Sublist
      (file.statements.flatMap Stmt.flatten) := by
  have contents : (file.outerDeclarations.map fun entry => Stmt.declaration entry.2) =
      file.statements.flatMap fun statement =>
        statement.outerDeclarations.map Stmt.declaration := by
    rw [← List.map_flatMap, ← outerDeclarations_contents, List.map_map]
    rfl
  rw [contents]
  induction file.statements with
  | nil => exact List.Sublist.slnil
  | cons statement rest ih =>
      rw [List.flatMap_cons, List.flatMap_cons]
      exact statement.outerDeclarations_sublist.append ih

/-- A file has no qualified name exactly when it has no outer declaration. Otherwise the first outer
declaration in document order is a declared type, and the qualified name is its name in the first
named namespace of the file: its own qualified name exactly when that namespace holds it, or when it
is in no named namespace and the file has none. -/
theorem qualifiedName_exact (file : SourceFile) :
    (file.outerDeclarations.map fun entry => Stmt.declaration entry.2).Sublist
      (file.statements.flatMap Stmt.flatten) ∧
    (file.qualifiedName = none ↔ file.outerDeclarations = []) ∧
    (file.types.size = 0 → file.qualifiedName = none) ∧
    ((∀ statement ∈ file.statements, statement.isPackage = true →
      ∀ inner ∈ statement.children, inner.isPackage = false) →
      file.outerDeclarations.map Prod.snd = declarationsOf file.statements ∧
      (file.qualifiedName = none ↔ file.types.size = 0)) ∧
    ∀ home content others, file.outerDeclarations = (home, content) :: others →
      file.types.contains content.name.value = true ∧
      file.qualifiedName = some (qualified file.packages.head? content.name.value) ∧
      (file.qualifiedName = some (qualified home content.name.value) ↔
        file.packages.head? = home) := by
  have missing : file.qualifiedName = none ↔ file.outerDeclarations = [] := by
    rw [qualifiedName_eq_map, Option.map_eq_none_iff, List.head?_eq_none_iff]
  refine ⟨file.outerDeclarations_ordered, missing, ?_, ?_, ?_⟩
  · intro empty
    have nothing := (TypeRegistry.size_ofStatements file.statements).mp empty
    rw [missing, List.eq_nil_iff_forall_not_mem]
    rintro ⟨home, content⟩ outer
    have declared := mem_declarationsOf_of_outer outer
    rw [nothing] at declared
    cases declared
  · intro flat
    have all := file.outerDeclarations_eq_declarationsOf flat
    refine ⟨all, missing.trans ?_⟩
    rw [types, TypeRegistry.size_ofStatements, ← all, List.map_eq_nil_iff]
  · intro home content others outer
    have name : file.qualifiedName = some (qualified file.packages.head? content.name.value) := by
      rw [qualifiedName_eq_map, outer]
      rfl
    refine ⟨?_, name, ?_⟩
    · rw [types, TypeRegistry.contains_ofStatements]
      have member : (home, content) ∈ file.outerDeclarations := outer ▸ List.mem_cons_self
      exact ⟨content, mem_declarationsOf_of_outer member, rfl⟩
    · rw [name, Option.some.injEq, qualified_left_inj]

/-- The first of two namespaces holds the first declaration. -/
theorem qualifiedName_exact_interface :
    (∃ content others, (ofText "a.php"
        "<?php namespace A \x7b interface I \x7b\x7d \x7d namespace B \x7b class C \x7b\x7d \x7d").1.outerDeclarations =
      (some "A", content) :: others) ∧
    (ofText "a.php"
      "<?php namespace A \x7b interface I \x7b\x7d \x7d namespace B \x7b class C \x7b\x7d \x7d").1.qualifiedName =
        some "A\\I" := by
  have outer : (ofText "a.php"
      "<?php namespace A \x7b interface I \x7b\x7d \x7d namespace B \x7b class C \x7b\x7d \x7d").1.outerDeclarations.map
        (fun entry => (entry.1, entry.2.name.value)) = [(some "A", "I"), (some "B", "C")] := rfl
  obtain ⟨⟨home, content⟩, others, first, same, _⟩ := List.map_eq_cons_iff.mp outer
  obtain ⟨rfl, name⟩ := Prod.mk.inj same
  refine ⟨⟨content, others, first⟩, ?_⟩
  have exact := ((qualifiedName_exact _).2.2.2.2 (some "A") content others first).2.1
  dsimp only at name
  rw [exact, name]
  rfl

/-- The declaration is in the second namespace, and the name is that of the first one. -/
theorem qualifiedName_of_other_namespace :
    (ofText "a.php" "<?php namespace A; namespace B; class C \x7b\x7d").1.outerDeclarations.map
        (fun entry => (entry.1, entry.2.name.value)) = [(some "B", "C")] ∧
    (ofText "a.php" "<?php namespace A; namespace B; class C \x7b\x7d").1.qualifiedName ≠
      some (qualified (some "B") "C") := by
  constructor
  · rfl
  · have name : (ofText "a.php"
        "<?php namespace A; namespace B; class C \x7b\x7d").1.qualifiedName = some "A\\C" := rfl
    rw [name]
    decide

end SourceFile

end PhpAudit
