import PhpAudit.Proofs.NamespaceBodies
import PhpAudit.Proofs.SitedExpressions

/-!
Statements and whole programs stand where the text says, so every leaf of a tree points at its
own text.
-/

namespace PhpAudit

open Outline

variable {text : List Char}

namespace Reader

variable {start : Cursor} {nested : Nested}

/-! Tags and bodies -/

theorem inlineHtml_sited (inText : start.point.In text) :
    Gives start inlineHtml fun statement _ => statement.outline.Sited text := by
  unfold inlineHtml
  refine .written inText (copies_lexeme _) fun span stored written => .give fun _ _ => ?_
  exact .leaf rfl rfl written (by simp)

theorem openingTag_sited (inText : start.point.In text) :
    Gives start openingTag fun statement _ => statement.outline.Sited text := by
  unfold openingTag
  refine .placed inText fun span placed => .pass fun tag => .give fun _ _ => ?_
  exact .branch rfl placed (by simp)

theorem closingTag_sited (inText : start.point.In text) :
    Gives start closingTag fun statements _ =>
      ∀ statement ∈ statements, statement.outline.Sited text := by
  unfold closingTag
  refine .placed inText fun span placed => .pass fun _ => ?_
  refine (inlineHtml_sited inText).option.next fun html htmlSited => ?_
  refine (openingTag_sited inText).option.next fun tag tagSited => .give fun _ _ => ?_
  have closing : (Stmt.closingTag span).outline.Sited text := .branch rfl placed (by simp)
  simpa [or_imp, forall_and] using ⟨closing, htmlSited, tagSited⟩

theorem asStatement_sited {span : Span} {statements : List Stmt} (placed : Placed text span)
    (sited : ∀ statement ∈ statements, statement.outline.Sited text) :
    (asStatement span statements).outline.Sited text := by
  unfold asStatement
  split
  · exact sited _ List.mem_cons_self
  · exact .branch rfl placed (by simpa using sited)

@[simp] theorem outlineBody_single (statement : Stmt) :
    outlineBody (.single statement) = statement.outline := rfl

theorem colonBody_sited {span : Span} {statements : List Stmt} (placed : Placed text span)
    (sited : ∀ statement ∈ statements, statement.outline.Sited text) :
    (outlineBody (.colon span statements)).Sited text :=
  .branch rfl placed (by simpa using sited)

theorem condition_sited (sited : nested.Sited text start) :
    Gives start (condition nested) fun value _ => value.outline.Sited text := by
  unfold condition
  refine .pass fun _ => .pass fun _ => (expression_sited sited).next fun value valueSited => ?_
  exact .pass fun _ => .pass fun _ => .give fun _ _ => valueSited

theorem loopBody_sited (sited : nested.Sited text start) (word : String) {span : Span}
    (placed : Placed text span) :
    Gives start (loopBody word span nested) fun body _ => (outlineBody body).Sited text := by
  unfold loopBody colonBody
  refine .orElse (.placed sited.inText fun span placed => .pass fun _ => .pass fun _ => ?_) ?_
  · refine (statementList_sited sited).next fun statements statementsSited => ?_
    refine .pass fun _ => .pass fun _ => .pass fun _ => .give fun _ _ => ?_
    exact colonBody_sited placed statementsSited
  · exact sited.statement.next fun statements statementsSited => .give fun _ _ =>
      asStatement_sited placed statementsSited

/-! Conditional statements -/

theorem elseIfClause_sited (sited : nested.Sited text start) :
    Gives start (elseIfClause nested) fun clause _ => (outlineElseIf clause).Sited text := by
  unfold elseIfClause
  refine .pass fun _ => .placed sited.inText fun span placed => .pass fun _ => .pass fun _ => ?_
  refine (condition_sited sited).next fun condition conditionSited => .pass fun _ => ?_
  refine sited.statement.next fun statements statementsSited => .give fun _ _ => ?_
  have body := asStatement_sited placed statementsSited
  exact .branch rfl placed (by simpa using ⟨conditionSited, body⟩)

theorem elseClause_sited (sited : nested.Sited text start) :
    Gives start (elseClause nested) fun clause _ => (outlineElse clause).Sited text := by
  unfold elseClause
  refine .pass fun _ => .placed sited.inText fun span placed => .pass fun _ => .pass fun _ => ?_
  refine sited.statement.next fun statements statementsSited => .give fun _ _ => ?_
  exact .branch rfl placed (by simpa using asStatement_sited placed statementsSited)

theorem elseIfColonClause_sited (sited : nested.Sited text start) :
    Gives start (elseIfColonClause nested) fun clause _ => (outlineElseIf clause).Sited text := by
  unfold elseIfColonClause
  refine .placed sited.inText fun span placed => .pass fun _ => .pass fun _ => ?_
  refine (condition_sited sited).next fun condition conditionSited => .pass fun _ => ?_
  refine .placed sited.inText fun colon colonPlaced => .pass fun _ => .pass fun _ => ?_
  refine (statementList_sited sited).next fun statements statementsSited => .give fun _ _ => ?_
  have body := colonBody_sited colonPlaced statementsSited
  exact .branch rfl placed (by simpa using ⟨conditionSited, body⟩)

theorem elseColonClause_sited (sited : nested.Sited text start) :
    Gives start (elseColonClause nested) fun clause _ => (outlineElse clause).Sited text := by
  unfold elseColonClause
  refine .placed sited.inText fun span placed => .pass fun _ => .pass fun _ => ?_
  refine .placed sited.inText fun colon colonPlaced => .pass fun _ => .pass fun _ => ?_
  refine (statementList_sited sited).next fun statements statementsSited => .give fun _ _ => ?_
  exact .branch rfl placed (by simpa using colonBody_sited colonPlaced statementsSited)

/-- The parts of a conditional stand where the text says. -/
def ConditionalSited (text : List Char) (statement : Stmt) : Prop :=
  ∃ span condition body elseIfs otherwise,
    statement = .ifElse span condition body elseIfs otherwise ∧ Placed text span ∧
    condition.outline.Sited text ∧ (outlineBody body).Sited text ∧
    (∀ clause ∈ elseIfs, (outlineElseIf clause).Sited text) ∧
    ∀ clause ∈ otherwise, (outlineElse clause).Sited text

theorem ifColon_sited (sited : nested.Sited text start) {span : Span} {condition : Expr}
    (placed : Placed text span) (conditionSited : condition.outline.Sited text) :
    Gives start (ifColon nested span condition) fun statement _ =>
      ConditionalSited text statement := by
  unfold ifColon
  refine .placed sited.inText fun colon colonPlaced => .pass fun _ => .pass fun _ => ?_
  refine (statementList_sited sited).next fun statements statementsSited => ?_
  refine ((elseIfColonClause_sited sited).each _).next fun elseIfs elseIfsSited => ?_
  refine (elseColonClause_sited sited).option.next fun otherwise otherwiseSited => ?_
  refine .pass fun _ => .pass fun _ => .pass fun _ => .give fun _ _ => ?_
  have body := colonBody_sited colonPlaced statementsSited
  exact ⟨_, _, _, _, _, rfl, placed, conditionSited, body, elseIfsSited, otherwiseSited⟩

theorem ifPlain_sited (sited : nested.Sited text start) {span : Span} {condition : Expr}
    (placed : Placed text span) (conditionSited : condition.outline.Sited text) :
    Gives start (ifPlain nested span condition) fun statement _ =>
      ConditionalSited text statement := by
  unfold ifPlain
  refine .placed sited.inText fun first firstPlaced => ?_
  refine sited.statement.next fun statements statementsSited => ?_
  refine ((elseIfClause_sited sited).each _).next fun elseIfs elseIfsSited => ?_
  refine (elseClause_sited sited).option.next fun otherwise otherwiseSited => .give fun _ _ => ?_
  have body := asStatement_sited firstPlaced statementsSited
  exact ⟨_, _, _, _, _, rfl, placed, conditionSited, body, elseIfsSited, otherwiseSited⟩

theorem ifStatement_sited (sited : nested.Sited text start) :
    Gives start (ifStatement nested) fun statement _ => statement.outline.Sited text := by
  have parts : Gives start (ifStatement nested) fun statement _ =>
      ConditionalSited text statement := by
    unfold ifStatement
    refine .placed sited.inText fun span placed => .pass fun _ => .pass fun _ => ?_
    refine (condition_sited sited).next fun condition conditionSited => .pass fun _ => ?_
    exact (ifColon_sited sited placed conditionSited).orElse
      (ifPlain_sited sited placed conditionSited)
  intro cursor statement later reached read
  obtain ⟨span, condition, body, elseIfs, otherwise, rfl, placed, inner⟩ := parts reached read
  have within := sited.within.reaches reached
  rw [sited.own] at within read
  obtain ⟨_, _, _, _, _, same, followed⟩ := ifStatement_followed within read
  cases same
  refine sited_node.mpr ⟨⟨placed, nofun, nofun, fun _ => ?_, nofun, nofun⟩, by simpa using inner⟩
  exact ⟨condition, body, elseIfs, otherwise, rfl, followed⟩

theorem switchCase_sited (sited : nested.Sited text start) :
    Gives start (switchCase nested) fun found _ => (outlineCase found).Sited text := by
  have condition : Gives start ((do keyword "case"; skip; some <$> expression nested) <|>
      (do keyword "default"; return none))
      fun condition _ => ∀ value ∈ condition, value.outline.Sited text := by
    refine .orElse (.pass fun _ => .pass fun _ => .map ?_) (.pass fun _ => .give (by simp))
    exact (expression_sited sited).weaken (by simp)
  unfold switchCase
  refine .placed sited.inText fun span placed => condition.next fun condition conditionSited => ?_
  refine .pass fun _ => .pass fun _ => .pass fun _ => ?_
  refine (statementList_sited sited).next fun statements statementsSited => .give fun _ _ => ?_
  exact .branch rfl placed (by simpa using ⟨conditionSited, statementsSited⟩)

theorem switchStatement_sited (sited : nested.Sited text start) :
    Gives start (switchStatement nested) fun statement _ => statement.outline.Sited text := by
  have cases : Gives start (switchCases nested) fun cases _ =>
      ∀ found ∈ cases, (outlineCase found).Sited text :=
    .pass fun _ => .pass fun _ => (switchCase_sited sited).each _
  unfold switchStatement
  refine .placed sited.inText fun span placed => .pass fun _ => .pass fun _ => ?_
  refine (condition_sited sited).next fun subject subjectSited => .pass fun _ => ?_
  have braces : Gives start (do
      mark "\x7b"
      let cases ← switchCases nested
      mark "\x7d"
      return cases) fun cases _ => ∀ found ∈ cases, (outlineCase found).Sited text :=
    .pass fun _ => cases.followed
  refine (braces.orElse (.pass fun _ => cases.next fun cases casesSited => ?_)).next ?_
  · exact .pass fun _ => .pass fun _ => .pass fun _ => .give fun _ _ => casesSited
  · intro cases casesSited
    exact .give fun _ _ => .branch rfl placed (by simpa using ⟨subjectSited, casesSited⟩)

/-! Loops -/

theorem whileStatement_sited (sited : nested.Sited text start) :
    Gives start (whileStatement nested) fun statement _ => statement.outline.Sited text := by
  unfold whileStatement
  refine .placed sited.inText fun span placed => .pass fun _ => .pass fun _ => ?_
  refine (condition_sited sited).next fun condition conditionSited => .pass fun _ => ?_
  refine (loopBody_sited sited _ placed).next fun body bodySited => .give fun _ _ => ?_
  exact .branch rfl placed (by simpa using ⟨conditionSited, bodySited⟩)

theorem doWhileStatement_sited (sited : nested.Sited text start) :
    Gives start (doWhileStatement nested) fun statement _ => statement.outline.Sited text := by
  unfold doWhileStatement
  refine .placed sited.inText fun span placed => .pass fun _ => .pass fun _ => ?_
  refine sited.statement.next fun statements statementsSited => ?_
  refine .pass fun _ => .pass fun _ => .pass fun _ => ?_
  refine (condition_sited sited).next fun condition conditionSited => .pass fun _ => ?_
  refine .pass fun _ => .give fun _ _ => .branch rfl placed ?_
  simpa using ⟨asStatement_sited placed statementsSited, conditionSited⟩

theorem forExpressions_sited (sited : nested.Sited text start) :
    Gives start (forExpressions nested) fun values _ =>
      ∀ value ∈ values, value.outline.Sited text :=
  ((expression_sited sited).commaList _).option.next fun _ found =>
    .give fun _ _ => forall_mem_getD_nil found

theorem forStatement_sited (sited : nested.Sited text start) :
    Gives start (forStatement nested) fun statement _ => statement.outline.Sited text := by
  have expressions := forExpressions_sited sited
  unfold forStatement
  refine .placed sited.inText fun span placed => .pass fun _ => .pass fun _ => ?_
  refine .pass fun _ => .pass fun _ => expressions.next fun initializers initializersSited => ?_
  refine .pass fun _ => .pass fun _ => .pass fun _ => ?_
  refine expressions.next fun conditions conditionsSited => ?_
  refine .pass fun _ => .pass fun _ => .pass fun _ => expressions.next fun steps stepsSited => ?_
  refine .pass fun _ => .pass fun _ => .pass fun _ => ?_
  refine (loopBody_sited sited _ placed).next fun body bodySited => .give fun _ _ => ?_
  exact .branch rfl placed
    (by simpa using ⟨initializersSited, conditionsSited, stepsSited, bodySited⟩)

theorem foreachTarget_sited (sited : nested.Sited text start) :
    Gives start (foreachTarget nested) fun found _ =>
      (∀ key ∈ found.1, key.outline.Sited text) ∧ found.2.2.outline.Sited text := by
  have target := chain_sited sited
  unfold foreachTarget
  refine target.option.next fun first firstSited => ?_
  split
  · refine .pass fun byRef => target.next fun target targetSited => .give fun _ _ => ?_
    exact ⟨by simp, targetSited⟩
  · rename_i first
    have firstSited : first.outline.Sited text := firstSited first rfl
    -- Only an arrow tells whether the chain already read was the key.
    refine .pass fun arrow => ?_
    split
    · refine .pass fun byRef => target.next fun target targetSited => .give fun _ _ => ?_
      exact ⟨by simpa using firstSited, targetSited⟩
    · exact .give fun _ _ => ⟨by simp, firstSited⟩

theorem foreachStatement_sited (sited : nested.Sited text start) :
    Gives start (foreachStatement nested) fun statement _ => statement.outline.Sited text := by
  have parts : Gives start (foreachStatement nested) fun statement _ =>
      ∃ span items key marked body target,
        statement = .foreachLoop span items key marked body target ∧ Placed text span ∧
        items.outline.Sited text ∧ (∀ found ∈ key, found.outline.Sited text) ∧
        (outlineBody body).Sited text ∧ target.outline.Sited text := by
    unfold foreachStatement
    refine .placed sited.inText fun span placed => .pass fun _ => .pass fun _ => ?_
    refine .pass fun _ => .pass fun _ => (expression_sited sited).next fun items itemsSited => ?_
    refine .pass fun _ => .pass fun _ => .pass fun _ => ?_
    refine (foreachTarget_sited sited).next fun found ⟨keySited, targetSited⟩ => ?_
    refine .pass fun _ => .pass fun _ => .pass fun _ => ?_
    refine (loopBody_sited sited _ placed).next fun body bodySited => .give fun _ _ => ?_
    exact ⟨_, _, _, _, _, _, rfl, placed, itemsSited, keySited, bodySited, targetSited⟩
  intro cursor statement later reached read
  obtain ⟨span, items, key, marked, body, target, rfl, placed, inner⟩ := parts reached read
  have within := sited.within.reaches reached
  rw [sited.own] at within read
  obtain ⟨_, _, _, _, _, same, header⟩ := foreachStatement_reads within read
  cases same
  refine sited_node.mpr ⟨⟨placed, nofun, fun _ => ?_, nofun, nofun, nofun⟩, by simpa using inner⟩
  exact ⟨cursor.offset, header.offset_le, within.spanAt_offset header.offset_le, _, _, _, _, _,
    rfl, header⟩

/-! Exceptions and simple statements -/

theorem catchClause_sited (sited : nested.Sited text start) :
    Gives start (catchClause nested) fun clause _ => (outlineCatch clause).Sited text := by
  unfold catchClause
  refine .pass fun _ => .placed sited.inText fun span placed => .pass fun _ => .pass fun _ => ?_
  refine .pass fun _ => .pass fun _ => .pass fun first => .pass fun others => .pass fun _ => ?_
  refine .pass fun binding => .pass fun _ => .pass fun _ => .pass fun _ => ?_
  refine (block_sited sited).next fun block blockSited => .give fun _ _ => ?_
  exact .branch rfl placed (by simpa using blockSited)

theorem tryStatement_sited (sited : nested.Sited text start) :
    Gives start (tryStatement nested) fun statement _ => statement.outline.Sited text := by
  have finallyClause : Gives start (finallyClause nested) fun block _ =>
      (outlineBlock block).Sited text :=
    .pass fun _ => .pass fun _ => .pass fun _ => block_sited sited
  unfold tryStatement
  refine .placed sited.inText fun span placed => .pass fun _ => .pass fun _ => ?_
  refine (block_sited sited).next fun block blockSited => ?_
  refine ((catchClause_sited sited).each _).next fun catches catchesSited => ?_
  refine finallyClause.option.next fun finallyBlock finallySited => .give fun _ _ => ?_
  exact .branch rfl placed (by simpa using ⟨blockSited, catchesSited, finallySited⟩)

theorem wordStatement_sited (sited : nested.Sited text start) (word : String)
    {build : Span → Option Expr → Stmt}
    (built : ∀ span value, Placed text span → (∀ found ∈ value, found.outline.Sited text) →
      (build span value).outline.Sited text) :
    Gives start (wordStatement word build nested) fun statement _ =>
      statement.outline.Sited text := by
  have value : Gives start (perhaps do skip; expression nested) _ :=
    .option (.pass fun _ => expression_sited sited)
  unfold wordStatement
  refine .placed sited.inText fun span placed => .pass fun _ => ?_
  refine value.next fun value valueSited => ?_
  exact .pass fun _ => .pass fun _ => .give fun _ _ => built span value placed valueSited

theorem echoStatement_sited (sited : nested.Sited text start) :
    Gives start (echoStatement nested) fun statement _ => statement.outline.Sited text := by
  unfold echoStatement
  refine .placed sited.inText fun span placed => .pass fun _ => .pass fun _ => ?_
  refine ((expression_sited sited).commaList _).next fun values valuesSited => ?_
  refine .pass fun _ => .pass fun _ => .give fun _ _ => ?_
  exact .branch rfl placed (by simpa using valuesSited)

theorem globalStatement_sited (sited : nested.Sited text start) :
    Gives start (globalStatement nested) fun statement _ => statement.outline.Sited text := by
  unfold globalStatement
  refine .placed sited.inText fun span placed => .pass fun _ => .pass fun _ => .pass fun names => ?_
  exact .pass fun _ => .pass fun _ => .give fun _ _ => .branch rfl placed (by simp)

theorem staticStatement_sited (sited : nested.Sited text start) :
    Gives start (staticStatement nested) fun statement _ => statement.outline.Sited text := by
  unfold staticStatement
  refine .placed sited.inText fun span placed => .pass fun _ => .pass fun _ => ?_
  refine (variableEntries_sited sited "StaticVariable" rfl).next fun entries entriesSited => ?_
  refine .pass fun _ => .pass fun _ => .give fun _ _ => ?_
  exact .branch rfl placed (by simpa using entriesSited)

theorem constStatement_sited (sited : nested.Sited text start) :
    Gives start (constStatement nested) fun statement _ => statement.outline.Sited text := by
  unfold constStatement
  refine .placed sited.inText fun span placed => .pass fun _ => .pass fun _ => ?_
  refine (constantEntries_sited sited).next fun entries entriesSited => ?_
  refine .pass fun _ => .pass fun _ => .give fun _ _ => ?_
  exact .branch rfl placed (by simpa using entriesSited)

theorem declareStatement_sited (sited : nested.Sited text start) :
    Gives start (declareStatement nested) fun statement _ => statement.outline.Sited text := by
  have directive : Gives start (constantEntry nested) fun entry _ =>
      (outlineDirective entry).Sited text := by
    refine (constantEntry_sited sited).weaken ?_
    rintro ⟨span, name, value⟩ _ _ ⟨_, _, valueSited⟩
    simpa [outlineDirective] using valueSited
  unfold declareStatement
  refine .placed sited.inText fun span placed => .pass fun _ => .pass fun _ => .pass fun _ => ?_
  refine .pass fun _ => (directive.commaList _).next fun directives directivesSited => ?_
  refine .pass fun _ => .pass fun _ => .pass fun _ => ?_
  refine (bodyOrEnd_sited sited).next fun body bodySited => .give fun _ _ => ?_
  exact .branch rfl placed (by simpa using ⟨directivesSited, bodySited⟩)

theorem noopStatement_sited (inText : start.point.In text) :
    Gives start noopStatement fun statement _ => statement.outline.Sited text := by
  unfold noopStatement
  refine .placed inText fun span placed => .pass fun _ => .give fun _ _ => ?_
  exact .branch rfl placed (by simp)

theorem expressionStatement_sited (sited : nested.Sited text start) :
    Gives start (expressionStatement nested) fun statement _ => statement.outline.Sited text := by
  unfold expressionStatement
  refine .placed sited.inText fun span placed => ?_
  refine (expression_sited sited).next fun value valueSited => .pass fun _ => .pass fun _ => ?_
  exact .give fun _ _ => .branch rfl placed (by simpa using valueSited)

/-! Namespaces and imports -/

theorem package_sited {span : Span} {name : Option String} {statements : List Stmt} {braced : Bool}
    (placed : Placed text span) (sited : ∀ statement ∈ statements, statement.outline.Sited text)
    (tagged : braced = false → TaggedAtEnd text statements) :
    (Stmt.package span name statements braced).outline.Sited text :=
  sited_node.mpr ⟨⟨placed, nofun, nofun, nofun,
    fun _ => ⟨name, statements, braced, rfl, tagged⟩, nofun⟩, by simpa using sited⟩

theorem imports_sited {span : Span} {kind : String} {items : List UseItem}
    (placed : Placed text span) (itemsPlaced : ∀ item ∈ items, Placed text item.span) :
    (Stmt.imports span kind items).outline.Sited text := by
  have itemsSited : ∀ item ∈ items, item.outline.Sited text := fun item member =>
    .branch rfl (itemsPlaced item member) (by simp)
  exact .branch rfl placed (by simpa using itemsSited)

theorem bracedNamespace_sited (sited : nested.Sited text start) :
    Gives start (bracedNamespace nested) fun statement _ => statement.outline.Sited text := by
  unfold bracedNamespace
  refine .placed sited.inText fun span placed => .pass fun _ => .pass fun _ => .pass fun name => ?_
  refine .pass fun _ => .pass fun _ => ?_
  refine (statementList_sited sited).next fun statements statementsSited => .pass fun _ => ?_
  exact .give fun _ _ => package_sited placed statementsSited nofun

theorem unbracedNamespace_sited (sited : nested.Sited text start) :
    Gives start (unbracedNamespace nested) fun statement _ => statement.outline.Sited text := by
  have parts : Gives start (unbracedNamespace nested) fun statement _ =>
      ∃ span name statements, statement = .package span name statements false ∧
        Placed text span ∧ ∀ statement ∈ statements, statement.outline.Sited text := by
    unfold unbracedNamespace
    refine .placed sited.inText fun span placed => .pass fun _ => .pass fun _ => ?_
    refine .pass fun name => .pass fun _ => .pass fun _ => .pass fun _ => ?_
    refine (Gives.each (.pass fun _ => sited.statement.followed) _).next fun groups inner => ?_
    exact .give fun _ _ => ⟨_, _, _, rfl, placed, List.forall_mem_flatten.mpr inner⟩
  intro cursor statement later reached read
  obtain ⟨span, name, statements, rfl, placed, inner⟩ := parts reached read
  have within := sited.within.reaches reached
  rw [sited.own] at within read
  obtain ⟨_, _, _, same, tagged⟩ := unbracedNamespace_tagged within read
  cases same
  exact package_sited placed inner fun _ => tagged

theorem useItem_placed (inText : start.point.In text) :
    Gives start useItem fun item _ => Placed text item.span := by
  unfold useItem
  refine .placed inText fun span placed => .pass fun _ => .pass fun name => ?_
  exact .pass fun localName => .give fun _ _ => placed

theorem useGroup_placed (inText : start.point.In text) :
    Gives start (useGroup nested) fun items _ => ∀ item ∈ items, Placed text item.span := by
  unfold useGroup
  refine .pass fun first => .pass fun _ => .pass fun _ => .pass fun _ => ?_
  refine ((useItem_placed inText).commaList _).next fun items itemsPlaced => ?_
  refine .pass fun _ => .pass fun _ => .pass fun _ => .pass fun _ => .give fun _ _ => ?_
  simpa using itemsPlaced

theorem useStatement_sited (sited : nested.Sited text start) :
    Gives start (useStatement nested) fun statement _ => statement.outline.Sited text := by
  have group : Gives start (useGroup nested <|> (do return [← useItem]))
      fun items _ => ∀ item ∈ items, Placed text item.span :=
    (useGroup_placed sited.inText).orElse <| (useItem_placed sited.inText).next fun _ found =>
      .give fun _ _ => by simpa using found
  unfold useStatement
  refine .placed sited.inText fun span placed => .pass fun _ => .pass fun _ => .pass fun kind => ?_
  refine (group.commaList _).next fun groups groupsPlaced => .pass fun _ => .pass fun _ => ?_
  exact .give fun _ _ => imports_sited placed (List.forall_mem_flatten.mpr groupsPlaced)

/-! Declarations -/

theorem functionDeclaration_sited (sited : nested.Sited text start) :
    Gives start (functionDeclaration nested) fun statement _ => statement.outline.Sited text := by
  unfold functionDeclaration
  refine .placed sited.inText fun span placed => .pass fun _ => .pass fun _ => .pass fun _ => ?_
  refine .pass fun byRef => (neededName_sited sited.inText).next fun name nameSited => ?_
  refine .pass fun _ => (parameterList_sited sited).next fun parameters parametersSited => ?_
  refine .pass fun _ => (returnHint_sited sited).option.next fun hint hintSited => ?_
  refine (block_sited sited).next fun body bodySited => .give fun _ _ => .branch rfl placed ?_
  simpa using ⟨nameSited, parametersSited, hintSited, bodySited⟩

theorem declaration_sited {span : Span} {name : Identifier} {kind : DeclarationKind}
    {members : List (Member Expr Stmt)} (placed : Placed text span)
    (nameSited : name.outline.Sited text) (fieldsSited : ∀ field ∈ kind.fields, field.2.Sited text)
    (membersSited : ∀ member ∈ members, (outlineMember member).Sited text) :
    (Stmt.declaration ⟨span, name, kind, members⟩).outline.Sited text := by
  have branch : isBranch kind.label = true := by
    cases kind <;> rfl
  refine .branch branch placed ?_
  simpa [or_imp, forall_and, nameSited] using ⟨by simpa using fieldsSited, membersSited⟩

theorem classDeclaration_sited (sited : nested.Sited text start) :
    Gives start (classDeclaration nested) fun statement _ => statement.outline.Sited text := by
  unfold classDeclaration
  refine .placed sited.inText fun span placed => .pass fun _ => .pass fun modifiers => ?_
  refine .pass fun _ => .pass fun _ => (neededName_sited sited.inText).next fun name nameSited => ?_
  refine .pass fun _ => .pass fun parent => .pass fun interfaces => ?_
  refine (classBody_sited sited).next fun members membersSited => .give fun _ _ => ?_
  exact declaration_sited placed nameSited (by simp [DeclarationKind.fields]) membersSited

theorem interfaceDeclaration_sited (sited : nested.Sited text start) :
    Gives start (interfaceDeclaration nested) fun statement _ => statement.outline.Sited text := by
  unfold interfaceDeclaration
  refine .placed sited.inText fun span placed => .pass fun _ => .pass fun _ => .pass fun _ => ?_
  refine (neededName_sited sited.inText).next fun name nameSited => ?_
  refine .pass fun _ => .pass fun parents => ?_
  refine (classBody_sited sited).next fun members membersSited => .give fun _ _ => ?_
  exact declaration_sited placed nameSited (by simp [DeclarationKind.fields]) membersSited

theorem traitDeclaration_sited (sited : nested.Sited text start) :
    Gives start (traitDeclaration nested) fun statement _ => statement.outline.Sited text := by
  unfold traitDeclaration
  refine .placed sited.inText fun span placed => .pass fun _ => .pass fun _ => .pass fun _ => ?_
  refine (neededName_sited sited.inText).next fun name nameSited => .pass fun _ => ?_
  refine (classBody_sited sited).next fun members membersSited => .give fun _ _ => ?_
  exact declaration_sited placed nameSited (by simp [DeclarationKind.fields]) membersSited

theorem enumDeclaration_sited (sited : nested.Sited text start) :
    Gives start (enumDeclaration nested) fun statement _ => statement.outline.Sited text := by
  unfold enumDeclaration
  refine .placed sited.inText fun span placed => .pass fun _ => .pass fun _ => .pass fun _ => ?_
  refine (neededName_sited sited.inText).next fun name nameSited => .pass fun _ => ?_
  refine (returnHint_sited sited).option.next fun backing backingSited => .pass fun interfaces => ?_
  refine (classBody_sited sited).next fun members membersSited => .give fun _ _ => ?_
  refine declaration_sited placed nameSited ?_ membersSited
  simpa [DeclarationKind.fields] using backingSited

/-! All statements -/

theorem statement_sited (sited : nested.Sited text start) :
    Gives start (statement nested) fun statements _ =>
      ∀ statement ∈ statements, statement.outline.Sited text := by
  refine .orElse (.lone (.map ?_)) <| (closingTag_sited sited.inText).orElse (.firstOf ?_)
  · simp only [List.mem_singleton, forall_eq]
    exact block_sited sited
  · simp only [List.forall_mem_cons, List.mem_singleton, forall_eq]
    refine ⟨ifStatement_sited sited, whileStatement_sited sited, doWhileStatement_sited sited,
      forStatement_sited sited, foreachStatement_sited sited, switchStatement_sited sited,
      tryStatement_sited sited, wordStatement_sited sited _ ?_, echoStatement_sited sited,
      wordStatement_sited sited _ ?_, wordStatement_sited sited _ ?_, globalStatement_sited sited,
      staticStatement_sited sited, bracedNamespace_sited sited, unbracedNamespace_sited sited,
      useStatement_sited sited, constStatement_sited sited, declareStatement_sited sited,
      functionDeclaration_sited sited, classDeclaration_sited sited,
      interfaceDeclaration_sited sited, traitDeclaration_sited sited, enumDeclaration_sited sited,
      noopStatement_sited sited.inText, expressionStatement_sited sited⟩
    all_goals
      intro span value placed valueSited
      exact .branch rfl placed (by simpa using valueSited)

theorem program_sited (sited : nested.Sited text start) :
    Gives start (program nested) fun statements _ =>
      ∀ statement ∈ statements, statement.outline.Sited text := by
  unfold program
  refine (inlineHtml_sited sited.inText).option.next fun html htmlSited => ?_
  refine (openingTag_sited sited.inText).option.next fun tag tagSited => .pass fun _ => ?_
  refine (statementList_sited sited).next fun statements statementsSited => .give fun _ _ => ?_
  simpa [or_imp, forall_and, and_assoc] using ⟨htmlSited, tagSited, statementsSited⟩

end Reader

/-- Every part stands where a text says. -/
def Contract.sited (text : List Char) : Contract where
  hint passage := passage.value.outline.Sited text
  unary passage := passage.value.outline.Sited text ∧ passage.value.Whole
  binary passage := passage.value.outline.Sited text
  ternary passage := passage.value.outline.Sited text ∧ 3 < passage.value.level
  expression passage := passage.value.outline.Sited text
  statement passage := ∀ statement ∈ passage.value, statement.outline.Sited text

theorem Reader.Gives.sitedPart {Value : Type} {start : Cursor} {good : Value → Prop}
    {select : Parts → Thunk (Option (Taken Value))}
    (kept : ∀ place, start.Reaches place → ∀ parts ∈ place.parts.head?,
      Keeps (fun passage => good passage.value) place.point (select parts)) :
    Reader.Gives start (Reader.part select) fun value _ => good value :=
  .part kept fun _ _ _ _ _ _ promised => promised

theorem Nested.ofText_sited {start : Cursor} (held : (Contract.sited text).HeldAt start)
    (within : start.Within (Nested.ofText text) text) : (Nested.ofText text).Sited text start where
  own := rfl
  within := within
  hint := .sitedPart fun place reached parts member => (held place reached parts member).hint
  unary := .sitedPart fun place reached parts member => (held place reached parts member).unary
  binary := .sitedPart fun place reached parts member => (held place reached parts member).binary
  ternary := .sitedPart fun place reached parts member =>
    (held place reached parts member).ternary
  expression := .sitedPart fun place reached parts member =>
    (held place reached parts member).expression
  statement := .sitedPart fun place reached parts member =>
    (held place reached parts member).statement

theorem Contract.sited_metBy (text : List Char) :
    (Contract.sited text).MetBy (Nested.ofText text) text where
  hint within held _ _ _ read :=
    Reader.hint_sited (Nested.ofText_sited held within) (Cursor.Reaches.refl _) read
  unary within held _ _ _ read :=
    ⟨Reader.unary_sited (Nested.ofText_sited held within) (Cursor.Reaches.refl _) read,
      Reader.unary_whole (Cursor.Reaches.refl _) read⟩
  binary within held _ _ _ read :=
    Reader.binary_sited (Nested.ofText_sited held within) (Cursor.Reaches.refl _) read
  ternary within held _ _ _ read :=
    have sited := Nested.ofText_sited held within
    have operand := sited.unary.weaken fun _ _ _ found => found.2
    ⟨Reader.ternary_sited sited (Cursor.Reaches.refl _) read,
      Reader.ternary_level operand (Cursor.Reaches.refl _) read⟩
  expression within held _ _ _ read :=
    Reader.expression_sited (Nested.ofText_sited held within) (Cursor.Reaches.refl _) read
  statement within held _ _ _ read :=
    Reader.statement_sited (Nested.ofText_sited held within) (Cursor.Reaches.refl _) read

/-- Every node of a tree stands where the text it was read from says. -/
theorem parse_sited {text : String} {statements : List Stmt}
    (parsed : parse text = .ok statements) :
    ∀ statement ∈ statements, statement.outline.Sited text.toList := by
  refine Contract.parsedFrom
    (fun statements => ∀ statement ∈ statements, statement.outline.Sited text.toList)
    (Contract.sited_metBy text.toList) ?_ parsed
  intro held
  exact Reader.program_sited (Nested.ofText_sited held (Cursor.within_ofText text.toList))

/-- The text at the place of a leaf begins with the string that the leaf keeps. -/
theorem parse_leaf_written {text : String} {statements : List Stmt}
    (parsed : parse text = .ok statements) :
    ∀ statement ∈ statements, ∀ label span fields,
      Occurs (.node label span fields) statement.outline →
        ∀ field, leafFields.lookup label = some field →
          ∃ stored, fields.lookup field = some (.text stored) ∧
            ∃ offset ≤ text.toList.length, spanAt text.toList offset = span ∧
              stored.toList <+: text.toList.drop offset := by
  intro statement member label span fields occurs field leaf
  obtain ⟨stored, kept, written⟩ :=
    (parse_sited parsed statement member label span fields occurs).2 field leaf
  exact ⟨stored, kept, written⟩

/-- The variable stands on the second line, after a character of two bytes. -/
theorem parse_leaf_written_variable :
    parse "é\n<?php $a;" = .ok [.inlineHtml {} "é\n", .openingTag ⟨2, 1, 3⟩ "<?php",
      .expression ⟨2, 7, 9⟩ (.var ⟨2, 7, 9⟩ "$a")] ∧
    ∃ stored, [("name", Outline.text "$a")].lookup "name" = some (.text stored) ∧
      ∃ offset ≤ "é\n<?php $a;".toList.length,
        spanAt "é\n<?php $a;".toList offset = ⟨2, 7, 9⟩ ∧
          stored.toList <+: "é\n<?php $a;".toList.drop offset := by
  have parsed : parse "é\n<?php $a;" = .ok [.inlineHtml {} "é\n", .openingTag ⟨2, 1, 3⟩ "<?php",
      .expression ⟨2, 7, 9⟩ (.var ⟨2, 7, 9⟩ "$a")] := rfl
  exact ⟨parsed, parse_leaf_written parsed (.expression ⟨2, 7, 9⟩ (.var ⟨2, 7, 9⟩ "$a"))
    (by simp) "Variable" ⟨2, 7, 9⟩ _ (.field List.mem_cons_self .here) "name" rfl⟩

/-- A loop over items keeps the header that stands at its place: the items, the key if one is
given, whether a mark for a reference stands before the target, and the target. -/
theorem parse_foreach_written {text : String} {statements : List Stmt}
    (parsed : parse text = .ok statements) :
    ∀ statement ∈ statements, ∀ span fields,
      Occurs (.node "Foreach" span fields) statement.outline →
        ∃ offset ≤ text.toList.length, spanAt text.toList offset = span ∧
          ∃ items key marked body target,
            fields = [("expression", items.outline), ("key", outlineOption key),
              ("value", .flag marked), ("body", outlineBody body), ("by_ref", target.outline)] ∧
            LoopHeader text.toList offset items key marked target := by
  intro statement member span fields occurs
  have node := parse_sited parsed statement member "Foreach" span fields occurs
  exact node.loop rfl

/-- The loop has a key and a target that is marked for a reference. -/
theorem parse_foreach_written_keyed :
    parse "<?php foreach ($a as $k => &$b) ;" = .ok [.openingTag {} "<?php",
      .foreachLoop ⟨1, 7, 6⟩ (.var ⟨1, 16, 15⟩ "$a") (some (.var ⟨1, 22, 21⟩ "$k")) true
        (.single (.noop ⟨1, 33, 32⟩)) (.var ⟨1, 29, 28⟩ "$b")] ∧
    ∃ offset ≤ "<?php foreach ($a as $k => &$b) ;".toList.length,
      spanAt "<?php foreach ($a as $k => &$b) ;".toList offset = ⟨1, 7, 6⟩ ∧
      ∃ items key marked body target,
        [("expression", (Expr.var ⟨1, 16, 15⟩ "$a").outline),
          ("key", (Expr.var ⟨1, 22, 21⟩ "$k").outline), ("value", .flag true),
          ("body", (Stmt.noop ⟨1, 33, 32⟩).outline),
          ("by_ref", (Expr.var ⟨1, 29, 28⟩ "$b").outline)] =
        [("expression", items.outline), ("key", outlineOption key), ("value", .flag marked),
          ("body", outlineBody body), ("by_ref", target.outline)] ∧
        LoopHeader "<?php foreach ($a as $k => &$b) ;".toList offset items key marked target := by
  have parsed : parse "<?php foreach ($a as $k => &$b) ;" = .ok [.openingTag {} "<?php",
      .foreachLoop ⟨1, 7, 6⟩ (.var ⟨1, 16, 15⟩ "$a") (some (.var ⟨1, 22, 21⟩ "$k")) true
        (.single (.noop ⟨1, 33, 32⟩)) (.var ⟨1, 29, 28⟩ "$b")] := rfl
  exact ⟨parsed, parse_foreach_written parsed _ (List.mem_cons_of_mem _ List.mem_cons_self)
    ⟨1, 7, 6⟩ _ .here⟩

end PhpAudit
