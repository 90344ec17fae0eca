import PhpAudit.Proofs.Reading
import PhpAudit.Proofs.ScopeIsolation

/-!
The types that hints name. A hint keeps a name as it is written, or one of the words `self`,
`static` and `parent` in small letters, so in a tree that was read from a text the known results of
methods are type names without a backslash at their start.
-/

namespace PhpAudit

/-- The name does not start with a backslash. -/
def IsCanonical (type : String) : Prop := type.toList.head? ≠ some '\\'

instance (type : String) : Decidable (IsCanonical type) := inferInstanceAs (Decidable (_ ≠ _))

theorem isCanonical_canonicalType (name : String) : IsCanonical (canonicalType name) := by
  have first := List.head?_dropWhile_not (· == '\\') name.toList
  intro slash
  rw [canonicalType, String.toList_ofList] at slash
  rw [slash] at first
  simp at first

theorem isCanonical_of_mem_keywordTypes {word : String} (known : word ∈ Reader.keywordTypes) :
    IsCanonical word := by
  simp only [Reader.keywordTypes, List.mem_cons, List.not_mem_nil, or_false] at known
  rcases known with rfl | rfl | rfl <;> decide

/-! Trees with such hints -/

/-- The type that a hint names, if any, is canonical. -/
def Hint.Canonical (hint : Hint) : Prop := ∀ type ∈ hint.typeName, IsCanonical type

def Method.Canonical (method : Method Expr Stmt) : Prop :=
  ∀ hint ∈ method.returnHint, hint.Canonical

/-- The results of all methods are canonical as far as they are known. -/
def Declaration.Canonical (declaration : Declaration Expr Stmt) : Prop :=
  ∀ method ∈ declaration.methods, method.Canonical

/-- The declarations of the statement, directly or in a namespace, are canonical. -/
def Stmt.Canonical (statement : Stmt) : Prop :=
  ∀ declaration ∈ statement.declarations, declaration.Canonical

def Member.Canonical : Member Expr Stmt → Prop
  | .method content => content.Canonical
  | _ => True

theorem Declaration.canonical_of_members {declaration : Declaration Expr Stmt}
    (members : ∀ member ∈ declaration.members, member.Canonical) : declaration.Canonical := by
  intro method listed
  obtain ⟨member, present, chosen⟩ := List.mem_filterMap.mp listed
  have canonical := members member present
  cases member with
  | method content =>
      cases chosen
      exact canonical
  | _ => cases chosen

theorem canonical_of_mem_declarationsOf {statements : List Stmt}
    (each : ∀ statement ∈ statements, statement.Canonical) :
    ∀ declaration ∈ declarationsOf statements, declaration.Canonical := by
  intro declaration declared
  rw [declarationsOf_eq_flatMap] at declared
  obtain ⟨statement, listed, inside⟩ := List.mem_flatMap.mp declared
  exact each statement listed declaration inside

namespace Stmt

theorem canonical_of_no_declarations {statement : Stmt} (none : statement.declarations = []) :
    statement.Canonical := by
  intro declaration declared
  rw [none] at declared
  cases declared

theorem canonical_declaration {content : Declaration Expr Stmt} (canonical : content.Canonical) :
    (declaration content).Canonical := by
  intro declared same
  cases List.mem_singleton.mp same
  exact canonical

theorem canonical_package {span : Span} {name : Option String} {statements : List Stmt}
    {braced : Bool} (each : ∀ statement ∈ statements, statement.Canonical) :
    (package span name statements braced).Canonical :=
  canonical_of_mem_declarationsOf each

end Stmt

/-- The readers of nested hints and statements give canonical ones, from a cursor on. -/
structure Nested.Canonical (nested : Nested) (start : Cursor) : Prop where
  hint : Reader.Gives start nested.hint fun hint _ => hint.Canonical
  statement : Reader.Gives start nested.statement fun statements _ =>
    ∀ statement ∈ statements, statement.Canonical

namespace Reader

variable {start : Cursor} {nested : Nested}

/-! Hints -/

theorem hintName_canonical : Gives start hintName fun hint _ => hint.Canonical := by
  unfold hintName
  refine .pass fun span => .pass fun text => .give fun _ _ => ?_
  split
  · rename_i keyword
    rintro type ⟨⟩
    exact isCanonical_of_mem_keywordTypes (List.contains_iff_mem.mp keyword)
  split
  · rintro type ⟨⟩
  · rintro type ⟨⟩
    exact isCanonical_canonicalType text

theorem hintAtom_canonical (canonical : nested.Canonical start) :
    Gives start (hintAtom nested) fun hint _ => hint.Canonical := by
  unfold hintAtom hintAtom.group
  refine .orElse (.pass fun _ => .pass fun _ => ?_) hintName_canonical
  refine canonical.hint.next fun inner innerCanonical => ?_
  exact .pass fun _ => .pass fun _ => .give fun _ _ => innerCanonical

theorem joinedHint_canonical (canonical : nested.Canonical start) :
    Gives start (joinedHint nested) fun hint _ => hint.Canonical := by
  unfold joinedHint
  refine .pass fun span => (hintAtom_canonical canonical).next fun first firstCanonical => ?_
  refine .pass fun alternatives => ?_
  -- Several hints together name no type, whatever each of them names.
  split
  · exact .give fun _ _ => nofun
  · refine .pass fun parts => .give fun _ _ => ?_
    split
    · exact firstCanonical
    · exact nofun

theorem hint_canonical (canonical : nested.Canonical start) :
    Gives start (hint nested) fun hint _ => hint.Canonical := by
  refine .orElse (.pass fun span => .pass fun _ => .pass fun _ => ?_)
    (joinedHint_canonical canonical)
  exact (hintAtom_canonical canonical).next fun inner innerCanonical => .give fun _ _ =>
    innerCanonical

theorem returnHint_canonical (canonical : nested.Canonical start) :
    Gives start (returnHint nested) fun hint _ => hint.Canonical :=
  .pass fun _ => .pass fun _ => (hint_canonical canonical).followed

/-! Members and declarations -/

theorem method_canonical (canonical : nested.Canonical start) :
    Gives start (method nested) fun member _ => member.Canonical := by
  unfold method
  refine .pass fun span => .pass fun modifiers => .pass fun _ => .pass fun _ => ?_
  refine .pass fun byRef => .pass fun name => .pass fun _ => .pass fun parameters => ?_
  refine .pass fun _ => (returnHint_canonical canonical).option.next fun hint hintCanonical => ?_
  exact .pass fun body => .give fun _ _ => hintCanonical

theorem member_canonical (canonical : nested.Canonical start) :
    Gives start (member nested) fun member _ => member.Canonical := by
  refine .pass fun _ => .orElse ?traits <| .orElse ?enumCase <| .orElse ?constant <|
    .orElse (method_canonical canonical) ?property
  case traits | enumCase | constant =>
    repeat refine .pass fun _ => ?_
    exact .give fun _ _ => trivial
  case property =>
    unfold property
    refine .pass fun span => .pass fun modifiers => ?_
    split
    · have never : Gives start failure fun (_ : PUnit) _ => False := .fail
      exact never.next nofun
    · repeat refine .pass fun _ => ?_
      exact .give fun _ _ => trivial

theorem classBody_canonical (canonical : nested.Canonical start) :
    Gives start (classBody nested) fun members _ => ∀ member ∈ members, member.Canonical := by
  refine .pass fun _ => .pass fun _ => ?_
  refine ((member_canonical canonical).followed.each nested.limit).next fun members each => ?_
  exact .pass fun _ => .give fun _ _ => each

/-- The end of every reader of a declaration. -/
theorem declaration_canonical (canonical : nested.Canonical start) (span : Span)
    (name : Identifier) (kind : DeclarationKind) :
    Gives start (do
      let members ← classBody nested
      return Stmt.declaration ⟨span, name, kind, members⟩)
      fun statement _ => statement.Canonical :=
  (classBody_canonical canonical).next fun _ each => .give fun _ _ =>
    Stmt.canonical_declaration (Declaration.canonical_of_members each)

theorem classDeclaration_canonical (canonical : nested.Canonical start) :
    Gives start (classDeclaration nested) fun statement _ => statement.Canonical := by
  refine .pass fun span => .pass fun _ => .pass fun modifiers => .pass fun _ => .pass fun _ => ?_
  refine .pass fun name => .pass fun _ => .pass fun parent => .pass fun interfaces => ?_
  exact declaration_canonical canonical span name _

theorem interfaceDeclaration_canonical (canonical : nested.Canonical start) :
    Gives start (interfaceDeclaration nested) fun statement _ => statement.Canonical := by
  refine .pass fun span => .pass fun _ => .pass fun _ => .pass fun _ => .pass fun name => ?_
  exact .pass fun _ => .pass fun parents => declaration_canonical canonical span name _

theorem traitDeclaration_canonical (canonical : nested.Canonical start) :
    Gives start (traitDeclaration nested) fun statement _ => statement.Canonical := by
  refine .pass fun span => .pass fun _ => .pass fun _ => .pass fun _ => .pass fun name => ?_
  exact .pass fun _ => declaration_canonical canonical span name _

theorem enumDeclaration_canonical (canonical : nested.Canonical start) :
    Gives start (enumDeclaration nested) fun statement _ => statement.Canonical := by
  refine .pass fun span => .pass fun _ => .pass fun _ => .pass fun _ => .pass fun name => ?_
  refine .pass fun _ => .pass fun backing => .pass fun interfaces => ?_
  exact declaration_canonical canonical span name _

/-! Statements -/

theorem statementList_canonical (canonical : nested.Canonical start) :
    Gives start (statementList nested) fun statements _ =>
      ∀ statement ∈ statements, statement.Canonical := by
  refine (canonical.statement.followed.each nested.limit).next fun groups each => ?_
  exact .give fun _ _ => List.forall_mem_flatten.mpr each

theorem bracedNamespace_canonical (canonical : nested.Canonical start) :
    Gives start (bracedNamespace nested) fun statement _ => statement.Canonical := by
  refine .pass fun span => .pass fun _ => .pass fun _ => .pass fun name => .pass fun _ => ?_
  refine .pass fun _ => (statementList_canonical canonical).next fun statements each => ?_
  exact .pass fun _ => .give fun _ _ => Stmt.canonical_package each

theorem unbracedNamespace_canonical (canonical : nested.Canonical start) :
    Gives start (unbracedNamespace nested) fun statement _ => statement.Canonical := by
  refine .pass fun span => .pass fun _ => .pass fun _ => .pass fun name => .pass fun _ => ?_
  refine .pass fun _ => .pass fun _ => ?_
  have round : Gives start (do
      absent namespaceStart
      let statements ← nested.statement
      skip
      return statements) fun statements _ => ∀ statement ∈ statements, statement.Canonical :=
    .pass fun _ => canonical.statement.followed
  refine (round.each nested.limit).next fun groups each => .give fun _ _ => ?_
  exact Stmt.canonical_package (List.forall_mem_flatten.mpr each)

theorem inlineHtml_canonical : Gives start inlineHtml fun statement _ => statement.Canonical :=
  .pass fun _ => .pass fun _ => .give fun _ _ => Stmt.canonical_of_no_declarations rfl

theorem openingTag_canonical : Gives start openingTag fun statement _ => statement.Canonical :=
  .pass fun _ => .pass fun _ => .give fun _ _ => Stmt.canonical_of_no_declarations rfl

theorem closingTag_canonical :
    Gives start closingTag fun statements _ => ∀ statement ∈ statements, statement.Canonical := by
  refine .pass fun span => .pass fun _ => ?_
  refine inlineHtml_canonical.option.next fun html htmlCanonical => ?_
  refine openingTag_canonical.option.next fun tag tagCanonical => .give fun _ _ => ?_
  have closing : (Stmt.closingTag span).Canonical := Stmt.canonical_of_no_declarations rfl
  simpa [or_imp, forall_and] using ⟨closing, htmlCanonical, tagCanonical⟩

theorem ifStatement_canonical :
    Gives start (ifStatement nested) fun statement _ => statement.Canonical := by
  refine .pass fun span => .pass fun _ => .pass fun _ => .pass fun condition => .pass fun _ => ?_
  refine .orElse ?colon ?plain
  all_goals
    repeat refine .pass fun _ => ?_
    exact .give fun _ _ => Stmt.canonical_of_no_declarations rfl

theorem statement_canonical (canonical : nested.Canonical start) :
    Gives start (statement nested) fun statements _ =>
      ∀ statement ∈ statements, statement.Canonical := by
  refine .orElse (.lone (.map ?_)) (closingTag_canonical.orElse (.firstOf ?_))
  · exact fun _ _ _ _ _ => List.forall_mem_singleton.mpr (Stmt.canonical_of_no_declarations rfl)
  simp only [List.forall_mem_cons, List.not_mem_nil, false_implies, implies_true, and_true]
  refine ⟨ifStatement_canonical, ?_, ?_, ?_, ?_, ?_, ?_, ?_, ?_, ?_, ?_, ?_, ?_,
    bracedNamespace_canonical canonical, unbracedNamespace_canonical canonical, ?_, ?_, ?_, ?_,
    classDeclaration_canonical canonical, interfaceDeclaration_canonical canonical,
    traitDeclaration_canonical canonical, enumDeclaration_canonical canonical, ?_, ?_⟩
  -- All other statements are no declarations, and those inside them do not count.
  all_goals
    repeat refine .pass fun _ => ?_
    exact .give fun _ _ => Stmt.canonical_of_no_declarations rfl

theorem program_canonical (canonical : nested.Canonical start) :
    Gives start (program nested) fun statements _ =>
      ∀ statement ∈ statements, statement.Canonical := by
  refine inlineHtml_canonical.option.next fun html htmlCanonical => ?_
  refine openingTag_canonical.option.next fun tag tagCanonical => .pass fun _ => ?_
  refine (statementList_canonical canonical).next fun statements each => .give fun _ _ => ?_
  simpa [or_imp, forall_and, and_assoc] using ⟨htmlCanonical, tagCanonical, each⟩

end Reader

/-- Hints and declarations are canonical at every place. -/
def Contract.canonical : Contract where
  hint passage := passage.value.Canonical
  unary _ := True
  binary _ := True
  ternary _ := True
  expression _ := True
  statement passage := ∀ statement ∈ passage.value, statement.Canonical

theorem Nested.held_canonical {start : Cursor} (limit : Nat)
    (held : Contract.canonical.HeldAt start) : (Nested.held limit).Canonical start where
  hint := .part (fun place reached parts member => (held place reached parts member).hint)
    fun _ _ _ _ _ _ promised => promised
  statement := .part (fun place reached parts member => (held place reached parts member).statement)
    fun _ _ _ _ _ _ promised => promised

theorem Contract.canonical_metBy {text : List Char} (limit : Nat) :
    Contract.canonical.MetBy (Nested.held limit) text where
  hint _ held _ _ _ read :=
    Reader.hint_canonical (Nested.held_canonical limit held) (Cursor.Reaches.refl _) read
  unary _ _ _ _ _ _ := trivial
  binary _ _ _ _ _ _ := trivial
  ternary _ _ _ _ _ _ := trivial
  expression _ _ _ _ _ _ := trivial
  statement _ held _ _ _ read :=
    Reader.statement_canonical (Nested.held_canonical limit held) (Cursor.Reaches.refl _) read

/-- The results that the declarations of a text name for their methods are canonical. -/
theorem parse_canonical {text : String} {statements : List Stmt}
    (parsed : parse text = .ok statements) : ∀ statement ∈ statements, statement.Canonical :=
  Contract.parsed (fun statements => ∀ statement ∈ statements, statement.Canonical)
    Contract.canonical_metBy
    (fun limit _ held => Reader.program_canonical (Nested.held_canonical limit held)) parsed

end PhpAudit
