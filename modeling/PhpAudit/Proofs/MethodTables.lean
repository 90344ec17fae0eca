import Mathlib.Data.List.TakeWhile
import PhpAudit.Proofs.EntryTables
import PhpAudit.Proofs.ScopeIsolation

/-!
What a table of methods answers. Several declarations of one type and several methods of one name
override each other from the first to the last, whereas the first trait with a method counts, and
only for methods that the declaration does not have itself. The declarations of a file are found by
their places: the index of a statement and, inside a namespace, the place there.
-/

namespace PhpAudit

/-! Tables built step by step -/

theorem getLast?_filterMap_eq_some_iff {Item Value : Type} {write : Item → Option Value}
    {items : List Item} {value : Value} :
    (items.filterMap write).getLast? = some value ↔
      ∃ front item back, items = front ++ item :: back ∧ write item = some value ∧
        ∀ later ∈ back, write later = none := by
  rw [List.getLast?_eq_some_iff]
  constructor
  · rintro ⟨earlier, split⟩
    obtain ⟨front, rest, rfl, -, final⟩ := List.filterMap_eq_append_iff.mp split
    obtain ⟨silent, item, back, rfl, -, written, after⟩ := List.filterMap_eq_cons_iff.mp final
    exact ⟨front ++ silent, item, back, by simp, written, List.filterMap_eq_nil_iff.mp after⟩
  · rintro ⟨front, item, back, rfl, written, silent⟩
    exact ⟨front.filterMap write, by simp [written, List.filterMap_eq_nil_iff.mpr silent]⟩

namespace Entries

variable {Item Value : Type}

theorem find?_put_eq_or (entries : Entries Value) (key other : String) (value : Value) :
    find? (put entries key value) other =
      (if key = other then some value else none).or (find? entries other) := by
  rw [find?_put]
  by_cases same : key = other
  · simp [same]
  · simp [same, Ne.symm same]

/-- Where every step overrides what is known, the last step with something to write counts. -/
theorem find?_foldl_of_override {step : Entries Value → Item → Entries Value} {key : String}
    (write : Item → Option Value)
    (override : ∀ known item, find? (step known item) key = (write item).or (find? known key))
    (items : List Item) (entries : Entries Value) :
    find? (items.foldl step entries) key =
      (items.filterMap write).getLast?.or (find? entries key) := by
  induction items generalizing entries with
  | nil => rfl
  | cons item rest ih =>
      rw [List.foldl_cons, ih, override]
      cases written : write item with
      | none => simp [written]
      | some value =>
          rw [List.filterMap_cons_some written, List.getLast?_cons]
          cases (rest.filterMap write).getLast? <;> rfl

/-- Where every step keeps what is known, the first step with something to offer counts. -/
theorem find?_foldl_of_keep {step : Entries Value → Item → Entries Value} {key : String}
    (offer : Item → Option Value)
    (keep : ∀ known item, find? (step known item) key = (find? known key).or (offer item))
    (items : List Item) (entries : Entries Value) :
    find? (items.foldl step entries) key = (find? entries key).or (items.findSome? offer) := by
  induction items generalizing entries with
  | nil => simp
  | cons item rest ih =>
      rw [List.foldl_cons, ih, keep, Option.or_assoc, List.findSome?_cons]
      cases offer item <;> rfl

theorem find?_eq_findSome? (entries : Entries Value) (key : String) :
    find? entries key = entries.findSome? fun entry => if entry.1 = key then some entry.2 else none := by
  induction entries with
  | nil => rfl
  | cons entry rest ih =>
      obtain ⟨known, value⟩ := entry
      rw [find?_cons, List.findSome?_cons, ih]
      by_cases same : known = key
      · simp [same]
      · simp [same, Ne.symm same]

theorem find?_map_values (change : Value → Value) (entries : Entries Value) (key : String) :
    find? (entries.map fun entry => (entry.1, change entry.2)) key =
      (find? entries key).map change := by
  induction entries with
  | nil => rfl
  | cons entry rest ih =>
      obtain ⟨known, value⟩ := entry
      rw [List.map_cons, find?_cons, find?_cons, ih]
      split <;> rfl

end Entries

/-! Methods of a declaration and of its traits -/

namespace Declaration

variable (declaration : Declaration Expr Stmt) (method : String)

/-- The result of the last method of a name among those whose result is known. -/
def lastResult : Option String :=
  (declaration.methods.filterMap fun own =>
    if own.name.value = method then own.returnHint.bind Hint.typeName else none).getLast?

theorem find?_ownTypes :
    Entries.find? declaration.ownTypes method = declaration.lastResult method := by
  rw [ownTypes, lastResult, Entries.find?_foldl_of_override fun own : Method Expr Stmt =>
    if own.name.value = method then own.returnHint.bind Hint.typeName else none]
  · exact Option.or_none
  · intro known own
    cases own.returnHint.bind Hint.typeName with
    | none => simp
    | some result => exact Entries.find?_put_eq_or known own.name.value method result

theorem declaresMethod_iff :
    declaration.declaresMethod method = true ↔
      ∃ own ∈ declaration.methods, own.name.value = method := by
  simp [declaresMethod]

theorem lastResult_of_undeclared (absent : declaration.declaresMethod method = false) :
    declaration.lastResult method = none := by
  rw [lastResult, List.getLast?_eq_none_iff, List.filterMap_eq_nil_iff]
  intro own member
  have other : own.name.value ≠ method := by
    intro same
    rw [(declaration.declaresMethod_iff method).mpr ⟨own, member, same⟩] at absent
    cases absent
  rw [if_neg other]

end Declaration

namespace TypeRegistry

variable (registry : TypeRegistry) (declaration : Declaration Expr Stmt) (method : String)

theorem find?_mergeTrait (known methods : MethodTypes) :
    Entries.find? (mergeTrait declaration known methods) method =
      (Entries.find? known method).or
        (if declaration.declaresMethod method then none else Entries.find? methods method) := by
  rw [mergeTrait, Entries.find?_foldl_of_keep fun entry : String × String =>
    if declaration.declaresMethod method then none
    else if entry.1 = method then some entry.2 else none]
  · congr 1
    split
    · simp
    · exact (Entries.find?_eq_findSome? methods method).symm
  · rintro merged ⟨name, result⟩
    by_cases same : name = method
    · subst same
      cases declaration.declaresMethod name <;>
        cases present : Entries.find? merged name <;>
        simp [Entries.contains, present, Entries.find?_put]
    · have other : method ≠ name := Ne.symm same
      split <;> simp [Entries.find?_put, other]

/-- What a trait gives for a method. -/
def givenBy (trait : String) : Option String :=
  (registry.get? (canonicalType trait)).bind fun methods => Entries.find? methods method

theorem find?_methodTypes :
    Entries.find? (registry.methodTypes declaration) method =
      Option.map (fun result => if result = declaration.name.value then "self" else result)
        (if declaration.declaresMethod method then declaration.lastResult method
          else declaration.traitNames.findSome? (registry.givenBy method)) := by
  have change : (fun result => if result == declaration.name.value then "self" else result) =
      fun result => if result = declaration.name.value then "self" else result := by
    funext result
    simp only [beq_iff_eq]
  rw [methodTypes, Entries.find?_map_values
      (fun result => if result == declaration.name.value then "self" else result), change,
    Entries.find?_foldl_of_keep fun trait =>
      if declaration.declaresMethod method then none else registry.givenBy method trait]
  · congr 1
    rw [declaration.find?_ownTypes]
    cases declared : declaration.declaresMethod method with
    | true =>
        have silent : declaration.traitNames.findSome? (fun _ => (none : Option String)) = none :=
          List.findSome?_eq_none_iff.mpr fun _ _ => rfl
        simp [silent]
    | false => simp [declaration.lastResult_of_undeclared method declared]
  · intro known trait
    rw [givenBy]
    cases registry.get? (canonicalType trait) with
    | none => simp
    | some methods => exact find?_mergeTrait declaration method known methods

end TypeRegistry

/-! Places of declarations -/

/-- The declaration at a place. A namespace is entered, nothing else is. -/
def declarationAt : List Nat → List Stmt → Option (Declaration Expr Stmt)
  | [], _ => none
  | index :: inner, statements =>
      match statements[index]? with
      | some (.declaration content) => if inner = [] then some content else none
      | some (.package _ _ nested _) => declarationAt inner nested
      | _ => none

/-- The content is the last declaration of the name in the order of the text. -/
def LastDeclared (statements : List Stmt) (name : String) (content : Declaration Expr Stmt) :
    Prop :=
  ∃ place, declarationAt place statements = some content ∧ content.name.value = name ∧
    ∀ later other, place < later → declarationAt later statements = some other →
      other.name.value ≠ name

mutual

/-- The declarations of a statement with their places in it. -/
def Stmt.sites : Stmt → List (List Nat × Declaration Expr Stmt)
  | .package _ _ statements _ => sitesFrom 0 statements
  | .declaration content => [([], content)]
  | _ => []

/-- The declarations of statements that are counted from an index on. -/
def sitesFrom (index : Nat) : List Stmt → List (List Nat × Declaration Expr Stmt)
  | [] => []
  | statement :: rest =>
      statement.sites.map (fun site => (index :: site.1, site.2)) ++ sitesFrom (index + 1) rest

end

theorem sitesFrom_eq_flatMap (start : Nat) (statements : List Stmt) :
    sitesFrom start statements = (statements.zipIdx start).flatMap fun entry =>
      entry.1.sites.map fun site => (entry.2 :: site.1, site.2) := by
  induction statements generalizing start with
  | nil => rfl
  | cons statement rest ih => rw [sitesFrom, ih, List.zipIdx_cons, List.flatMap_cons]

theorem mem_sitesFrom {start : Nat} {statements : List Stmt} {place : List Nat}
    {content : Declaration Expr Stmt} :
    (place, content) ∈ sitesFrom start statements ↔
      ∃ index inner statement, start ≤ index ∧ statements[index - start]? = some statement ∧
        (inner, content) ∈ statement.sites ∧ place = index :: inner := by
  simp only [sitesFrom_eq_flatMap, List.mem_flatMap, List.mem_map, Prod.exists, Prod.mk.injEq,
    List.mk_mem_zipIdx_iff_le_and_getElem?_sub]
  constructor
  · rintro ⟨statement, index, ⟨bound, here⟩, inner, _, inside, rfl, rfl⟩
    exact ⟨index, inner, statement, bound, here, inside, rfl⟩
  · rintro ⟨index, inner, statement, bound, here, inside, rfl⟩
    exact ⟨statement, index, ⟨bound, here⟩, inner, content, inside, rfl, rfl⟩

theorem sitesFrom_contents {statements : List Stmt}
    (each : ∀ statement ∈ statements, statement.sites.map Prod.snd = statement.declarations)
    (start : Nat) :
    (sitesFrom start statements).map Prod.snd = declarationsOf statements := by
  induction statements generalizing start with
  | nil => rfl
  | cons statement rest ih =>
      rw [sitesFrom, declarationsOf, List.map_append, List.map_map,
        ih fun inner member => each inner (List.mem_cons_of_mem _ member)]
      exact congrArg (· ++ _) (each statement List.mem_cons_self)

/-- The places increase in the order of the text: those in one statement share its index, and the
next statements have a greater one. -/
theorem sitesFrom_increasing {statements : List Stmt}
    (each : ∀ statement ∈ statements, statement.sites.Pairwise fun first second =>
      first.1 < second.1)
    (start : Nat) :
    (sitesFrom start statements).Pairwise fun first second => first.1 < second.1 := by
  induction statements generalizing start with
  | nil => exact List.Pairwise.nil
  | cons statement rest ih =>
      refine List.pairwise_append.mpr ⟨List.pairwise_map.mpr ?_,
        ih (fun inner member => each inner (List.mem_cons_of_mem _ member)) _, ?_⟩
      · exact (each statement List.mem_cons_self).imp fun before =>
          List.cons_lt_cons_iff.mpr (.inr ⟨rfl, before⟩)
      · rintro site inside ⟨place, content⟩ later
        obtain ⟨inner, -, rfl⟩ := List.mem_map.mp inside
        obtain ⟨index, below, -, bound, -, -, rfl⟩ := mem_sitesFrom.mp later
        exact List.cons_lt_cons_iff.mpr (.inl bound)

namespace Stmt

theorem sites_contents (statement : Stmt) :
    statement.sites.map Prod.snd = statement.declarations := by
  induction statement using Stmt.induction_on_children with
  | step statement ih =>
      cases statement with
      | package span name statements braced => exact sitesFrom_contents ih 0
      | _ => rfl

theorem sites_increasing (statement : Stmt) :
    statement.sites.Pairwise fun first second => first.1 < second.1 := by
  induction statement using Stmt.induction_on_children with
  | step statement ih =>
      cases statement with
      | package span name statements braced => exact sitesFrom_increasing ih 0
      | declaration content => exact List.pairwise_singleton _ _
      | _ => exact List.Pairwise.nil

end Stmt

theorem mem_sites_iff_declarationAt {statements : List Stmt} {place : List Nat}
    {content : Declaration Expr Stmt} :
    (place, content) ∈ sitesFrom 0 statements ↔ declarationAt place statements = some content := by
  rw [mem_sitesFrom]
  induction place generalizing statements with
  | nil => simp [declarationAt]
  | cons index inner ih =>
      have named : (∃ place below statement, 0 ≤ place ∧
          statements[place - 0]? = some statement ∧ (below, content) ∈ statement.sites ∧
          index :: inner = place :: below) ↔
          ∃ statement, statements[index]? = some statement ∧
            (inner, content) ∈ statement.sites := by
        constructor
        · rintro ⟨_, _, statement, -, here, inside, ⟨⟩⟩
          exact ⟨statement, here, inside⟩
        · rintro ⟨statement, here, inside⟩
          exact ⟨index, inner, statement, Nat.zero_le _, here, inside, rfl⟩
      rw [named, declarationAt]
      cases statements[index]? with
      | none => simp
      | some statement =>
          cases statement with
          | package span name nested braced =>
              simp only [Option.some.injEq, exists_eq_left', Stmt.sites]
              rw [mem_sitesFrom, ih]
          | declaration found =>
              by_cases whole : inner = [] <;> simp [Stmt.sites, whole, eq_comm]
          | _ => simp [Stmt.sites]

/-- Of the declarations in the order of the text, no later one has the name. -/
theorem lastDeclared_iff {statements : List Stmt} {name : String}
    {content : Declaration Expr Stmt} :
    LastDeclared statements name content ↔
      ∃ front place back, sitesFrom 0 statements = front ++ (place, content) :: back ∧
        content.name.value = name ∧ ∀ site ∈ back, site.2.name.value ≠ name := by
  have increasing : (sitesFrom 0 statements).Pairwise fun first second => first.1 < second.1 :=
    sitesFrom_increasing (fun statement _ => statement.sites_increasing) 0
  constructor
  · rintro ⟨place, found, same, final⟩
    obtain ⟨front, back, split⟩ := List.append_of_mem (mem_sites_iff_declarationAt.mpr found)
    refine ⟨front, place, back, split, same, ?_⟩
    rintro ⟨later, other⟩ behind
    rw [split, List.pairwise_append, List.pairwise_cons] at increasing
    refine final later other (increasing.2.1.1 _ behind) ?_
    exact mem_sites_iff_declarationAt.mp (by simp [split, behind])
  · rintro ⟨front, place, back, split, same, different⟩
    refine ⟨place, mem_sites_iff_declarationAt.mp (by simp [split]), same, ?_⟩
    intro later other after found
    rw [← mem_sites_iff_declarationAt, split, List.mem_append, List.mem_cons] at found
    rw [split, List.pairwise_append] at increasing
    -- What stands before the chosen place, or at it, is not later than it.
    rcases found with before | here | behind
    · exact absurd (increasing.2.2 _ before _ List.mem_cons_self) (List.lt_asymm after)
    · cases here
      exact absurd after (List.lt_irrefl place)
    · exact different _ behind

/-! Names of declarations -/

theorem letters_of_plain {name : String} (plain : '\\' ∉ name.toList) :
    ∀ letter ∈ name.toList.reverse, (letter != '\\') = true := by
  intro letter member
  rw [bne_iff_ne]
  rintro rfl
  exact plain (List.mem_reverse.mp member)

theorem lastSegment_of_plain {name : String} (plain : '\\' ∉ name.toList) :
    lastSegment name = name := by
  rw [lastSegment, List.takeWhile_eq_self_iff.mpr (letters_of_plain plain), List.reverse_reverse,
    String.ofList_toList]

theorem lastSegment_append (front : String) {segment : String} (plain : '\\' ∉ segment.toList) :
    lastSegment (front ++ "\\" ++ segment) = segment := by
  rw [lastSegment, String.toList_append, String.toList_append, List.reverse_append,
    List.takeWhile_append_of_pos (letters_of_plain plain)]
  simp

theorem exists_segment {name : String} (qualified : '\\' ∈ name.toList) :
    ∃ front segment, name = front ++ "\\" ++ segment ∧ '\\' ∉ segment.toList := by
  obtain ⟨back, front, split, plain⟩ :=
    List.eq_append_cons_of_mem (List.mem_reverse.mpr qualified)
  refine ⟨String.ofList front.reverse, String.ofList back.reverse, ?_, by simpa using plain⟩
  apply String.toList_injective
  rw [← List.reverse_reverse name.toList, split]
  simp

namespace TypeRegistry

theorem find?_ofStatements {statements : List Stmt} {name : String} {methods : MethodTypes} :
    Entries.find? (ofStatements statements).types name = some methods ↔
      ∃ content, LastDeclared statements name content ∧ content.ownTypes = methods := by
  have contents : (sitesFrom 0 statements).map Prod.snd = declarationsOf statements :=
    sitesFrom_contents (fun statement _ => statement.sites_contents) 0
  rw [ofStatements, Entries.find?_foldl_of_override fun content : Declaration Expr Stmt =>
      if content.name.value = name then some content.ownTypes else none,
    ← contents, List.filterMap_map, Entries.find?, List.lookup_nil, Option.or_none,
    getLast?_filterMap_eq_some_iff]
  · simp only [lastDeclared_iff]
    constructor
    · rintro ⟨front, ⟨place, content⟩, back, split, written, silent⟩
      obtain ⟨same, rfl⟩ : content.name.value = name ∧ content.ownTypes = methods := by
        simpa using written
      exact ⟨content, ⟨front, place, back, split, same, fun site behind => by
        simpa using silent site behind⟩, rfl⟩
    · rintro ⟨content, ⟨front, place, back, split, same, different⟩, rfl⟩
      exact ⟨front, (place, content), back, split, by simp [same], fun site behind => by
        simp [different site behind]⟩
  · intro known content
    exact Entries.find?_put_eq_or known content.name.value name content.ownTypes

theorem find?_ofStatements_eq_none {statements : List Stmt} {name : String} :
    Entries.find? (ofStatements statements).types name = none ↔
      ∀ content, ¬ LastDeclared statements name content := by
  rw [Option.eq_none_iff_forall_ne_some]
  constructor
  · intro unknown content last
    exact unknown _ (find?_ofStatements.mpr ⟨content, last, rfl⟩)
  · intro absent methods known
    obtain ⟨content, last, -⟩ := find?_ofStatements.mp known
    exact absent content last

theorem get?_ofStatements {statements : List Stmt} {name : String} {methods : MethodTypes} :
    (ofStatements statements).get? name = some methods ↔
      ∃ content, content.ownTypes = methods ∧
        (LastDeclared statements name content ∨
          (∀ other, ¬ LastDeclared statements name other) ∧
            ∃ front segment, name = front ++ "\\" ++ segment ∧ '\\' ∉ segment.toList ∧
              LastDeclared statements segment content) := by
  rw [get?]
  cases known : Entries.find? (ofStatements statements).types name with
  | some found =>
      obtain ⟨registered, last, -⟩ := find?_ofStatements.mp known
      have direct : some found = some methods ↔
          ∃ content, LastDeclared statements name content ∧ content.ownTypes = methods :=
        known ▸ find?_ofStatements
      refine direct.trans ⟨?_, ?_⟩
      · rintro ⟨content, last, own⟩
        exact ⟨content, own, .inl last⟩
      · rintro ⟨content, own, last' | ⟨absent, -⟩⟩
        · exact ⟨content, last', own⟩
        · exact absurd last (absent registered)
  | none =>
      have absent := find?_ofStatements_eq_none.mp known
      by_cases qualified : '\\' ∈ name.toList
      · obtain ⟨front, segment, rfl, plain⟩ := exists_segment qualified
        simp only [List.contains_iff_mem, qualified, if_true, lastSegment_append front plain,
          find?_ofStatements]
        constructor
        · rintro ⟨content, last, own⟩
          exact ⟨content, own, .inr ⟨absent, front, segment, rfl, plain, last⟩⟩
        · rintro ⟨content, own, last | ⟨-, other, part, same, plain', last⟩⟩
          · exact absurd last (absent content)
          · have parts : segment = part := by
              rw [← lastSegment_append front plain, same, lastSegment_append other plain']
            exact ⟨content, parts ▸ last, own⟩
      · simp only [List.contains_iff_mem, qualified, if_false]
        constructor
        · intro impossible
          cases impossible
        · rintro ⟨content, -, last | ⟨-, front, segment, rfl, -, -⟩⟩
          · exact absurd last (absent content)
          · exact absurd (by simp) qualified

/-- The merged table of a declaration. A method that it has itself gets the last known result among
its own methods of the name, even if that is none; any other method gets what the first trait in
the order of mention gives, and its own name reads `self`. The registered table of a name is the one
of its last declaration, or of its last part where a qualified name is not declared. -/
theorem methodTypes_merged (statements : List Stmt) (declaration : Declaration Expr Stmt)
    (method : String) :
    Entries.find? ((ofStatements statements).methodTypes declaration) method =
        Option.map (fun result => if result = declaration.name.value then "self" else result)
          (if ∃ own ∈ declaration.methods, own.name.value = method then
            declaration.lastResult method
          else declaration.traitNames.findSome? ((ofStatements statements).givenBy method)) ∧
      (∀ content, Entries.find? content.ownTypes method = Declaration.lastResult content method) ∧
      ∀ name methods, (ofStatements statements).get? name = some methods ↔
        ∃ content, content.ownTypes = methods ∧
          (LastDeclared statements name content ∨
            (∀ other, ¬ LastDeclared statements name other) ∧
              ∃ front segment, name = front ++ "\\" ++ segment ∧ '\\' ∉ segment.toList ∧
                LastDeclared statements segment content) := by
  refine ⟨?_, fun content => content.find?_ownTypes method, fun _ _ => get?_ofStatements⟩
  rw [find?_methodTypes]
  simp only [declaration.declaresMethod_iff method]

end TypeRegistry

end PhpAudit
