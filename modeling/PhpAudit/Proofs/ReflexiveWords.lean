import Mathlib.Data.List.TakeWhile
import PhpAudit.Proofs.ClauseWords
import PhpAudit.Proofs.RespelledWalks
import PhpAudit.Proofs.ScopeIsolation

/-!
The words `self`, `static` and `parent` in capital and small letters. Before a double colon and as a
type hint they mean the same in any case, so neither the calls that are found nor the types that are
known depend on how they are written there. After `new` they count only in small letters.
-/

namespace PhpAudit

/-! Words in lower case -/

theorem isLower_toLower {character : Char} (capital : character.isUpper = true) :
    character.toLower.isLower = true := by
  have inside : 'A'.val ≤ character.val ∧ character.val ≤ 'Z'.val := of_decide_eq_true capital
  have shifted : character.toLower.val = character.val + 32 :=
    congrArg Char.val (dif_pos inside)
  have bounds : 97 ≤ character.val + 32 ∧ character.val + 32 ≤ 122 := by
    obtain ⟨least, most⟩ := inside
    rw [UInt32.le_iff_toNat_le] at least most
    simp only [UInt32.le_iff_toNat_le, UInt32.toNat_add] at *
    change 65 ≤ character.val.toNat at least
    change character.val.toNat ≤ 90 at most
    change 97 ≤ (character.val.toNat + 32) % 2 ^ 32 ∧ (character.val.toNat + 32) % 2 ^ 32 ≤ 122
    omega
  rw [← shifted] at bounds
  exact Bool.and_eq_true_iff.mpr ⟨decide_eq_true bounds.1, decide_eq_true bounds.2⟩

theorem toLower_of_not_isUpper {character : Char} (small : ¬ character.isUpper = true) :
    character.toLower = character :=
  dif_neg fun inside => small (decide_eq_true inside)

theorem not_isUpper_toLower (character : Char) : ¬ character.toLower.isUpper = true := by
  by_cases capital : character.isUpper = true
  · have lower := isLower_toLower capital
    intro upper
    have least : 'a'.val ≤ character.toLower.val :=
      of_decide_eq_true (Bool.and_eq_true_iff.mp lower).1
    have most : character.toLower.val ≤ 'Z'.val := (of_decide_eq_true upper).2
    exact absurd (UInt32.le_trans least most) (by decide)
  · rwa [toLower_of_not_isUpper capital]

theorem toLower_eq_backslash (character : Char) :
    (character.toLower == '\\') = (character == '\\') := by
  by_cases capital : character.isUpper = true
  · have lower := isLower_toLower capital
    have notLower : character.toLower ≠ '\\' := fun same =>
      absurd (same ▸ lower) (by decide)
    have notUpper : character ≠ '\\' := fun same => absurd (same ▸ capital) (by decide)
    simp [notLower, notUpper]
  · rw [toLower_of_not_isUpper capital]

theorem lowerAscii_lowerAscii (word : String) : lowerAscii (lowerAscii word) = lowerAscii word := by
  simp [lowerAscii, Function.comp_def, toLower_of_not_isUpper (not_isUpper_toLower _)]

/-- Taking the backslashes off and writing small letters can be done in any order. -/
theorem canonicalType_lowerAscii (text : String) :
    canonicalType (lowerAscii text) = lowerAscii (canonicalType text) := by
  simp [canonicalType, lowerAscii, List.dropWhile_map, Function.comp_def, toLower_eq_backslash]

/-- A reflexive word in small letters; any other name as it is. -/
def lowerReflexive (text : String) : String :=
  if isReflexive (lowerAscii (canonicalType text)) then lowerAscii text else text

theorem referencedType_lowerReflexive (text : String) :
    referencedType (lowerReflexive text) = referencedType text := by
  unfold lowerReflexive
  split
  · rename_i reflexive
    simp only [isReflexive, Bool.or_eq_true, beq_iff_eq] at reflexive
    simp only [referencedType, canonicalType_lowerAscii, lowerAscii_lowerAscii]
    rcases reflexive with (word | word) | word <;> simp [word]
  · rfl

/-- The spelling with small letters for the reflexive words before a double colon. Two trees that
are the same in this spelling differ at most in the case of such words. -/
def Spelling.lower : Spelling := { reference := lowerReflexive }

theorem Spelling.lower_var : Spelling.lower.var = id := rfl

theorem Spelling.faithful_lower : Spelling.lower.Faithful where
  injective := Function.injective_id
  this := rfl
  reference text := by simp only [Spelling.lower, referencedType_lowerReflexive]

theorem Entries.renamed_id {Value : Type} (entries : Entries Value) :
    Entries.renamed id entries = entries := by
  simp [Entries.renamed]

theorem Tracker.renamed_id (tracker : Tracker) : tracker.renamed id = tracker := by
  simp [Tracker.renamed, Entries.renamed_id]

/-! Expressions and walks -/

theorem Scope.typeOf_lower (scope : Scope) (types : VariableTypes) (expression : Expr) :
    scope.typeOf types (expression.respelled .lower) = scope.typeOf types expression := by
  have same := scope.typeOf_respelled Spelling.faithful_lower types expression
  rwa [Spelling.lower_var, Entries.renamed_id] at same

theorem Scope.calls_lower (scope : Scope) (types : VariableTypes) (expression : Expr) :
    scope.calls types (expression.respelled .lower) = scope.calls types expression := by
  have same := scope.calls_respelled Spelling.faithful_lower types expression
  rwa [Spelling.lower_var, Entries.renamed_id] at same

theorem Tracker.walkAll_lower (scope : Scope) (tracker : Tracker) (statements : List Stmt) :
    walkAll scope tracker (statements.map (Stmt.respelled .lower)) =
      walkAll scope tracker statements := by
  have same := walkAll_respelled Spelling.faithful_lower scope tracker statements
  rwa [Spelling.lower_var, renamed_id, renamed_id] at same

/-! Declarations -/

namespace Declaration

variable (spelling : Spelling) (declaration : Declaration Expr Stmt)

theorem respelled_methods :
    (respelledDeclaration spelling declaration).methods =
      declaration.methods.map (respelledMethod spelling) := by
  simp only [methods, respelledDeclaration_eq, List.filterMap_map, List.map_filterMap]
  congr 1
  funext member
  cases member <;> rfl

theorem respelled_ownTypes :
    (respelledDeclaration spelling declaration).ownTypes = declaration.ownTypes := by
  simp only [ownTypes, respelled_methods, List.foldl_map, respelledMethod_eq]

theorem respelled_declaresMethod (method : String) :
    (respelledDeclaration spelling declaration).declaresMethod method =
      declaration.declaresMethod method := by
  simp only [declaresMethod, respelled_methods, List.any_map, Function.comp_def,
    respelledMethod_eq]

theorem respelled_traitNames :
    (respelledDeclaration spelling declaration).traitNames = declaration.traitNames := by
  simp only [traitNames, respelledDeclaration_eq, List.flatMap_map]
  congr 1
  funext member
  cases member <;> rfl

end Declaration

theorem Stmt.respelled_declarations (spelling : Spelling) (statement : Stmt) :
    (statement.respelled spelling).declarations =
      statement.declarations.map (respelledDeclaration spelling) := by
  induction statement using Stmt.induction_on_children with
  | step statement ih =>
      cases statement with
      | package span name statements braced =>
          simp only [Stmt.respelled, Stmt.declarations, respelledStmts_eq_map,
            declarationsOf_eq_flatMap, List.flatMap_map, List.map_flatMap]
          exact List.flatMap_congr ih
      | _ => rfl

namespace TypeRegistry

theorem ofStatements_respelled (spelling : Spelling) (statements : List Stmt) :
    ofStatements (statements.map (Stmt.respelled spelling)) = ofStatements statements := by
  have declared : declarationsOf (statements.map (Stmt.respelled spelling)) =
      (declarationsOf statements).map (respelledDeclaration spelling) := by
    simp only [declarationsOf_eq_flatMap, List.flatMap_map, List.map_flatMap,
      Stmt.respelled_declarations]
  simp only [ofStatements, declared, List.foldl_map, Declaration.respelled_ownTypes]
  simp only [respelledDeclaration_eq]

theorem methodTypes_respelled (registry : TypeRegistry) (spelling : Spelling)
    (declaration : Declaration Expr Stmt) :
    registry.methodTypes (respelledDeclaration spelling declaration) =
      registry.methodTypes declaration := by
  simp only [methodTypes, mergeTrait, Declaration.respelled_traitNames,
    Declaration.respelled_ownTypes, Declaration.respelled_declaresMethod]
  simp only [respelledDeclaration_eq]

end TypeRegistry

theorem Declaration.foreignCalls_lower (registry : TypeRegistry)
    (declaration : Declaration Expr Stmt) :
    (respelledDeclaration .lower declaration).foreignCalls registry =
      declaration.foreignCalls registry := by
  simp only [Declaration.foreignCalls, Declaration.respelled_methods, List.flatMap_map,
    TypeRegistry.methodTypes_respelled, respelledMethod_eq]
  simp only [respelledDeclaration_eq]
  congr 1
  funext method
  cases content : method.body <;> simp [Tracker.walkAll_lower]

theorem Stmt.foreignCalls_lower (registry : TypeRegistry) (statement : Stmt) :
    (statement.respelled .lower).foreignCalls registry = statement.foreignCalls registry := by
  induction statement using Stmt.induction_on_children with
  | step statement ih =>
      have walked := Tracker.walkAll_lower {} {} [statement]
      cases statement with
      | package span name statements braced =>
          simp only [Stmt.respelled, Stmt.foreignCalls, respelledStmts_eq_map,
            foreignCallsOf_eq_flatMap, List.flatMap_map]
          exact List.flatMap_congr ih
      | declaration content =>
          have same := content.foreignCalls_lower registry
          rcases content with ⟨span, name, kind, members⟩
          cases kind with
          | interfaceType parents => rfl
          | _ => exact same
      | function span name parameters returnHint body byRef => rfl
      | _ => exact congrArg Tracker.found walked

theorem foreignCallsOf_lower (statements : List Stmt) :
    foreignCallsOf (TypeRegistry.ofStatements (statements.map (Stmt.respelled .lower)))
        (statements.map (Stmt.respelled .lower)) =
      foreignCallsOf (TypeRegistry.ofStatements statements) statements := by
  simp only [TypeRegistry.ofStatements_respelled, foreignCallsOf_eq_flatMap, List.flatMap_map,
    Stmt.foreignCalls_lower]

/-! Type hints -/

/-- The cursor stands before a word in capital or small letters, and goes on behind it, where the
name ends. -/
structure Cursor.BeforeWord (cursor : Cursor) (word : String) (later : Cursor) : Prop where
  spelled : ∃ spelling : List Char, spelling.map Char.toLower = word.toList ∧
    cursor.rest = spelling ++ later.rest
  behind : later = cursor.advance word.length
  ends : Lexeme.nameTail isNameStart isNamePart later.rest = 0

theorem isLower_of_mem_reflexive {word : String} (reflexive : isReflexive word = true) :
    word.toList ≠ [] ∧ ∀ letter ∈ word.toList, letter.isLower = true := by
  simp only [isReflexive, Bool.or_eq_true, beq_iff_eq] at reflexive
  rcases reflexive with (rfl | rfl) | rfl <;> decide

theorem Lexeme.nameTail_append {start part : Char → Bool} {word : List Char}
    (parts : ∀ character ∈ word, part character = true) (ahead : List Char) :
    nameTail start part (word ++ ahead) = nameTail start part ahead + word.length := by
  induction word with
  | nil => rfl
  | cons character rest ih =>
      obtain ⟨first, others⟩ := List.forall_mem_cons.mp parts
      rw [List.cons_append, nameTail, if_pos first, ih others]
      rfl

/-- A word of letters is the whole name where nothing continues it. -/
theorem Lexeme.qualified_of_letters {first : Char} {word ahead : List Char}
    (letters : ∀ character ∈ first :: word, character.isAlpha = true)
    (ends : nameTail isNameStart isNamePart ahead = 0) :
    qualified (first :: word ++ ahead) = some (word.length + 1) := by
  obtain ⟨letter, others⟩ := List.forall_mem_cons.mp letters
  have start : isNameStart first = true := by simp [isNameStart, letter]
  have slash : first ≠ '\\' := by
    rintro rfl
    exact absurd letter (by decide)
  have parts : ∀ character ∈ word, isNamePart character = true := fun character member => by
    simp [isNamePart, isNameStart, others character member]
  simp [qualified, qualifiedBy, followedBy, perhaps, one, start, slash, nameTail_append parts, ends,
    Nat.add_comm]

namespace Reader

variable {nested : Nested} {word : String} {cursor later : Cursor}

theorem run_hintName (reflexive : isReflexive word = true) (before : cursor.BeforeWord word later) :
    hintName.run cursor = some (.keyword cursor.span word, later) := by
  obtain ⟨spelling, same, rest⟩ := before.spelled
  obtain ⟨nonempty, lower⟩ := isLower_of_mem_reflexive reflexive
  have size : spelling.length = word.length := by
    rw [← String.length_toList, ← same, List.length_map]
  have letters : ∀ character ∈ spelling, character.isAlpha = true := fun character member =>
    isAlpha_of_toLower (lower _ (same ▸ List.mem_map_of_mem member)) rfl
  have taken : Lexeme.qualified cursor.rest = some word.length := by
    cases spelling with
    | nil => exact absurd same.symm nonempty
    | cons first others =>
        rw [rest, Lexeme.qualified_of_letters letters before.ends, ← size]
        rfl
  have lowered : lowerAscii (String.ofList (cursor.rest.take word.length)) = word := by
    rw [rest, ← size, List.take_left, lowerAscii, String.toList_ofList, same, String.ofList_toList]
  have keyword : keywordTypes.contains word = true := by
    simpa [isReflexive, keywordTypes, or_assoc] using reflexive
  have text : (lexeme Lexeme.qualified).run cursor =
      some (String.ofList (cursor.rest.take word.length), later) := by
    simp only [lexeme, taken, before.behind]
  rw [hintName, run_bind_of_some (show here.run cursor = some (cursor.span, cursor) from rfl),
    run_bind_of_some text, lowered]
  dsimp only
  rw [if_pos keyword]
  rfl

/-- A mark does not stand where a word does. -/
theorem mark_fails_before (reflexive : isReflexive word = true) (before : cursor.BeforeWord word later)
    {text : String} {first : Char} {more : List Char} (sign : text.toList = first :: more)
    (dark : first.isAlpha = false) : (mark text).Fails cursor := by
  obtain ⟨spelling, same, rest⟩ := before.spelled
  obtain ⟨nonempty, lower⟩ := isLower_of_mem_reflexive reflexive
  refine Fails.token ?_
  cases spelling with
  | nil => exact absurd same.symm nonempty
  | cons character others =>
      have letter : character.isAlpha = true :=
        isAlpha_of_toLower (lower _ (same ▸ List.mem_map_of_mem List.mem_cons_self)) rfl
      have other : character ≠ first := by
        rintro rfl
        rw [dark] at letter
        cases letter
      simp [rest, sign, Lexeme.mark, other]

theorem run_hintAtom (reflexive : isReflexive word = true)
    (before : cursor.BeforeWord word later) :
    (hintAtom nested).run cursor = some (.keyword cursor.span word, later) := by
  have closed : (hintAtom.group nested).Fails cursor :=
    Fails.bind (mark_fails_before reflexive before rfl (by decide))
  rw [hintAtom, closed.run_orElse, run_hintName reflexive before]

/-- A hint that starts with the word is the same however the word is written. -/
theorem run_hint_eq (reflexive : isReflexive word = true) (before : cursor.BeforeWord word later)
    {place : Cursor} (other : place.BeforeWord word later) (span : place.span = cursor.span) :
    (hint nested).run place = (hint nested).run cursor := by
  have plain : ∀ {start : Cursor}, start.BeforeWord word later →
      (nullableHint nested).Fails start := fun start =>
    Fails.here (Fails.bind (mark_fails_before reflexive start rfl (by decide)))
  rw [hint, (plain other).run_orElse, (plain before).run_orElse, joinedHint,
    run_bind_of_some (show here.run place = some (place.span, place) from rfl),
    run_bind_of_some (show here.run cursor = some (cursor.span, cursor) from rfl),
    run_bind_of_some (run_hintAtom reflexive other),
    run_bind_of_some (run_hintAtom reflexive before), span]

end Reader

/-! New objects -/

/-- A reflexive word in small letters is its own lower case. -/
theorem lowerAscii_of_isReflexive {word : String} (reflexive : isReflexive word = true) :
    lowerAscii word = word := by
  simp only [isReflexive, Bool.or_eq_true, beq_iff_eq] at reflexive
  rcases reflexive with (rfl | rfl) | rfl <;> decide

theorem lastSegment_of_reflexive {word : String} (reflexive : isReflexive (lowerAscii word) = true) :
    lastSegment word = word := by
  obtain ⟨-, lower⟩ := isLower_of_mem_reflexive reflexive
  have letters : ∀ character ∈ word.toList.reverse, (character != '\\') = true := by
    intro character member
    have small : character.toLower.isLower = true :=
      lower _ (by simpa [lowerAscii] using ⟨character, List.mem_reverse.mp member, rfl⟩)
    rw [bne, ← toLower_eq_backslash, Bool.not_eq_true', beq_eq_false_iff_ne]
    intro same
    rw [same] at small
    exact absurd small (by decide)
  rw [lastSegment, List.takeWhile_eq_self_iff.mpr letters, List.reverse_reverse,
    String.ofList_toList]

/-- Inside a declaration whose name is no reflexive word, a reflexive word is an own type only in
small letters. -/
theorem Scope.owns_reflexive {scope : Scope} {word : String}
    (named : ∀ name ∈ scope.current, isReflexive (lowerAscii name) = false)
    (reflexive : isReflexive (lowerAscii word) = true) :
    scope.owns word = true ↔ lowerAscii word = word := by
  rw [owns, Bool.or_eq_true, beq_iff_eq, lastSegment_of_reflexive reflexive]
  constructor
  · rintro (small | current)
    · exact lowerAscii_of_isReflexive small
    · rw [named word current] at reflexive
      cases reflexive
  · intro small
    exact .inl (small ▸ reflexive)

/-- The reflexive words mean the same in any case before a double colon and as type hints. For two
lists of statements that differ only in the case of such words before double colons, every walk ends
with the same calls and the same types of variables, the files have the same foreign calls, and
expressions that differ so have the same type and calls. A hint of such a word is read alike however
the word is written. After `new` the case does matter: a call on the new object is foreign exactly
when the word is not written in small letters. -/
theorem reflexiveWords_in_any_case {first second : List Stmt}
    (same : first.map (Stmt.respelled .lower) = second.map (Stmt.respelled .lower)) :
    (∀ scope tracker, Tracker.walkAll scope tracker first = Tracker.walkAll scope tracker second) ∧
      foreignCallsOf (TypeRegistry.ofStatements first) first =
        foreignCallsOf (TypeRegistry.ofStatements second) second ∧
      (∀ left right : Expr, left.respelled .lower = right.respelled .lower → ∀ scope types,
        Scope.typeOf scope types left = Scope.typeOf scope types right ∧
          Scope.calls scope types left = Scope.calls scope types right) ∧
      (∀ nested word cursor later, isReflexive word = true → cursor.BeforeWord word later →
        (Reader.hintAtom nested).run cursor = some (.keyword cursor.span word, later) ∧
          ∀ place : Cursor, place.BeforeWord word later → place.span = cursor.span →
            (Reader.hint nested).run place = (Reader.hint nested).run cursor) ∧
      ∀ scope : Scope, (∀ name ∈ scope.current, isReflexive (lowerAscii name) = false) →
        ∀ types span place site text method, isReflexive (lowerAscii (canonicalType text)) = true →
          (scope.calls types (.methodCall span (.new place (.name site text) []) method []) = [] ↔
            lowerAscii (canonicalType text) = canonicalType text) := by
  refine ⟨fun scope tracker => ?_, ?_, fun left right alike scope types => ⟨?_, ?_⟩, ?_, ?_⟩
  · rw [← Tracker.walkAll_lower, same, Tracker.walkAll_lower]
  · rw [← foreignCallsOf_lower, same, foreignCallsOf_lower]
  · rw [← scope.typeOf_lower, alike, scope.typeOf_lower]
  · rw [← scope.calls_lower, alike, scope.calls_lower]
  · intro nested word cursor later reflexive before
    exact ⟨Reader.run_hintAtom reflexive before,
      fun place other span => Reader.run_hint_eq reflexive before other span⟩
  · intro scope named types span place site text method reflexive
    rw [← scope.owns_reflexive named reflexive]
    cases owned : scope.owns (canonicalType text) <;>
      simp [Scope.calls, Scope.callsInArguments, Scope.report, Scope.typeOf, Scope.isForeign, owned]

/-- A call on what a static method of the enclosing class gives. -/
def staticChain (word : String) : List Stmt :=
  [.expression ⟨1, 1, 0⟩ (.methodCall ⟨1, 1, 0⟩
    (.staticMethodCall ⟨1, 1, 0⟩ (.name ⟨1, 1, 0⟩ word) "make" []) "run" [])]

theorem reflexiveWords_in_any_case_static :
    (staticChain "STATIC").map (Stmt.respelled .lower) =
        (staticChain "static").map (Stmt.respelled .lower) ∧
      (Tracker.walkAll ⟨some "A", [("make", "B")]⟩ {} (staticChain "STATIC")).found =
        [⟨"run", some "B", ⟨1, 1, 0⟩⟩] := by
  have word : lowerReflexive "STATIC" = lowerReflexive "static" := by decide
  have same : (staticChain "STATIC").map (Stmt.respelled .lower) =
      (staticChain "static").map (Stmt.respelled .lower) := by
    simp [staticChain, Stmt.respelled, Expr.respelled, Expr.renamed, Spelling.lower, word]
  exact ⟨same, congrArg Tracker.found ((reflexiveWords_in_any_case same).1 _ _)⟩

end PhpAudit
