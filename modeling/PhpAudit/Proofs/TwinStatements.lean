import PhpAudit.Proofs.TwinExpressions

/-!
The readers of statements and declarations on two texts that are twins as far as single lexemes and
nested parts go.
-/

namespace PhpAudit

namespace Reader

variable {onward : Prop} {related : Cursor → Cursor → Prop} {nested other : Nested}
  (twinned : nested.ClassTwinned related other)

include twinned

/-! Bodies -/

omit twinned in
theorem asStatement_bare (span place : Span) {statements others : List Stmt}
    (alike : statements.map (fun statement => statement.outline.bare) =
      others.map fun statement => statement.outline.bare) :
    (asStatement span statements).outline.bare = (asStatement place others).outline.bare := by
  rcases statements with _ | ⟨first, _ | ⟨second, rest⟩⟩ <;>
    rcases others with _ | ⟨found, _ | ⟨next, more⟩⟩ <;>
    simp_all [asStatement, Stmt.outline, outlineBlock, Function.comp_def]

theorem condition_twins :
    Twins onward related (fun value => value.outline.bare) (condition nested) (condition other) :=
  twinned.opens (by decide) ((expression_twins twinned).bind fun _ _ same =>
    twinned.closes (by decide) (.give same))

theorem colonBody_twins {word : String} (solid : Lexeme.solidWord word = true) :
    Twins onward related (fun body => (outlineBody body).bare) (colonBody word nested)
      (colonBody word other) := by
  refine .here fun span place => twinned.opens (by decide) ?_
  refine (statementList_twins twinned.toTwinned).bind fun statements statements' alike => ?_
  refine twinned.starts solid ((terminator_twins twinned.toTwinned).pass (.give ?_))
  simp [outlineBody, alike, Function.comp_def]

theorem loopBody_twins {word : String} (solid : Lexeme.solidWord word = true) (span place : Span) :
    Twins onward related (fun body => (outlineBody body).bare) (loopBody word span nested)
      (loopBody word place other) := by
  refine (colonBody_twins twinned solid).orElse ?_
  refine (twinned.statements.weaken fun _ => trivial).bind fun statements statements' alike => ?_
  exact .give (by rw [outlineBody, outlineBody, asStatement_bare span place alike])

/-! Conditional statements -/

theorem elseIfClause_twins :
    Twins onward related (fun clause => (outlineElseIf clause).bare) (elseIfClause nested)
      (elseIfClause other) := by
  refine twinned.skips.beyond (.here fun span place => twinned.starts (by decide) ?_)
  refine (condition_twins twinned).bind fun condition condition' same => twinned.skips.beyond ?_
  refine (twinned.statements.weaken False.elim).bind fun statements statements' alike => .give ?_
  simp [outlineElseIf, outlineBody, same, asStatement_bare span place alike]

theorem elseClause_twins :
    Twins onward related (fun clause => (outlineElse clause).bare) (elseClause nested)
      (elseClause other) := by
  refine twinned.skips.beyond (.here fun span place => twinned.starts (by decide) ?_)
  refine (twinned.statements.weaken False.elim).bind fun statements statements' alike => .give ?_
  simp [outlineElse, outlineBody, asStatement_bare span place alike]

theorem elseIfColonClause_twins :
    Twins onward related (fun clause => (outlineElseIf clause).bare) (elseIfColonClause nested)
      (elseIfColonClause other) := by
  refine .here fun span place => twinned.starts (by decide) ?_
  refine (condition_twins twinned).bind fun condition condition' same => twinned.skips.beyond ?_
  refine .here fun colon colon' => twinned.opens (by decide) ?_
  refine (statementList_twins twinned.toTwinned).bind fun statements statements' alike => .give ?_
  simp [outlineElseIf, outlineBody, same, alike, Function.comp_def]

theorem elseColonClause_twins :
    Twins onward related (fun clause => (outlineElse clause).bare) (elseColonClause nested)
      (elseColonClause other) := by
  refine .here fun span place => twinned.starts (by decide) ?_
  refine .here fun colon colon' => twinned.opens (by decide) ?_
  refine (statementList_twins twinned.toTwinned).bind fun statements statements' alike => .give ?_
  simp [outlineElse, outlineBody, alike, Function.comp_def]

omit twinned in
theorem outlineOptionElse_bare {first second : Option (Else Stmt)}
    (same : first.map (fun clause => (outlineElse clause).bare) =
      second.map fun clause => (outlineElse clause).bare) :
    (outlineOptionElse first).bare = (outlineOptionElse second).bare := by
  cases first <;> cases second <;> simp_all [outlineOptionElse]

theorem ifColon_twins (span place : Span) {condition condition' : Expr}
    (same : condition.outline.bare = condition'.outline.bare) :
    Twins onward related (fun statement => statement.outline.bare) (ifColon nested span condition)
      (ifColon other place condition') := by
  refine .here fun colon colon' => twinned.opens (by decide) ?_
  refine (statementList_twins twinned.toTwinned).bind fun statements statements' alike => ?_
  refine (twinned.many (elseIfColonClause_twins twinned)).bind fun elseIfs elseIfs' sameElseIfs => ?_
  refine (elseColonClause_twins twinned).perhaps.bind fun otherwise otherwise' sameElse => ?_
  refine twinned.starts (by decide) ((terminator_twins twinned.toTwinned).pass (.give ?_))
  simp [Stmt.outline, outlineBody, same, alike, sameElseIfs, outlineOptionElse_bare sameElse,
    Function.comp_def]

theorem ifPlain_twins (span place : Span) {condition condition' : Expr}
    (same : condition.outline.bare = condition'.outline.bare) :
    Twins onward related (fun statement => statement.outline.bare) (ifPlain nested span condition)
      (ifPlain other place condition') := by
  refine .here fun start start' => ?_
  refine (twinned.statements.weaken fun _ => trivial).bind fun statements statements' alike => ?_
  refine (twinned.many (elseIfClause_twins twinned)).bind fun elseIfs elseIfs' sameElseIfs => ?_
  refine (elseClause_twins twinned).perhaps.bind fun otherwise otherwise' sameElse => .give ?_
  simp [Stmt.outline, outlineBody, same, asStatement_bare start start' alike, sameElseIfs,
    outlineOptionElse_bare sameElse, Function.comp_def]

theorem ifStatement_twins :
    Twins onward related (fun statement => statement.outline.bare) (ifStatement nested)
      (ifStatement other) := by
  refine .here fun span place => twinned.starts (by decide) ?_
  refine (condition_twins twinned).bind fun condition condition' same => twinned.skips.beyond ?_
  exact (ifColon_twins twinned span place same).orElse (ifPlain_twins twinned span place same)

theorem switchCase_twins :
    Twins onward related (fun case => (outlineCase case).bare) (switchCase nested)
      (switchCase other) := by
  have condition : Twins onward related (Option.map fun value : Expr => value.outline.bare)
      ((do keyword "case"; skip; some <$> expression nested) <|>
        (do keyword "default"; return none))
      ((do keyword "case"; skip; some <$> expression other) <|>
        (do keyword "default"; return none)) := by
    refine Twins.orElse (twinned.starts (by decide) ?_) ((twinned.keyword (by decide)).pass ?_)
    · exact (expression_twins twinned).map fun _ _ same => congrArg some same
    · exact .give rfl
  refine .here fun span place => condition.bind fun condition condition' same => ?_
  refine twinned.skips.beyond
    (((twinned.mark (by decide)).orElse (twinned.mark (by decide))).pass (twinned.skips.beyond ?_))
  refine (statementList_twins twinned.toTwinned).bind fun statements statements' alike => .give ?_
  simp [outlineCase, outlineOption_bare same, alike, Function.comp_def]

theorem switchCases_twins :
    Twins False related (List.map fun case => (outlineCase case).bare) (switchCases nested)
      (switchCases other) := by
  refine twinned.skips.beyond ?_
  refine ((twinned.mark (by decide)).pass twinned.skips).perhaps.discard.pass ?_
  exact twinned.many (switchCase_twins twinned)

theorem switchStatement_twins :
    Twins onward related (fun statement => statement.outline.bare) (switchStatement nested)
      (switchStatement other) := by
  have cases : Twins False related
      (List.map fun case : SwitchCase Expr Stmt => (outlineCase case).bare)
      ((do
        mark "\x7b"
        let cases ← switchCases nested
        mark "\x7d"
        return cases) <|> do
          mark ":"
          let cases ← switchCases nested
          keyword "endswitch"
          skip
          terminator
          return cases)
      ((do
        mark "\x7b"
        let cases ← switchCases other
        mark "\x7d"
        return cases) <|> do
          mark ":"
          let cases ← switchCases other
          keyword "endswitch"
          skip
          terminator
          return cases) := by
    refine Twins.orElse ((twinned.mark (by decide)).pass ?_) ((twinned.mark (by decide)).pass ?_)
    · exact (switchCases_twins twinned).bind fun _ _ alike =>
        (twinned.mark (by decide)).pass (.give alike)
    · exact (switchCases_twins twinned).bind fun _ _ alike =>
        twinned.starts (by decide) ((terminator_twins twinned.toTwinned).pass (.give alike))
  refine .here fun span place => twinned.starts (by decide) ?_
  refine (condition_twins twinned).bind fun subject subject' same => twinned.skips.beyond ?_
  refine cases.bind fun cases cases' alike => .give ?_
  simp [Stmt.outline, same, alike, Function.comp_def]

/-! Loops -/

theorem whileStatement_twins :
    Twins onward related (fun statement => statement.outline.bare) (whileStatement nested)
      (whileStatement other) := by
  refine .here fun span place => twinned.starts (by decide) ?_
  refine (condition_twins twinned).bind fun condition condition' same => twinned.skips.beyond ?_
  refine (loopBody_twins twinned (by decide) span place).bind fun body body' sameBody => .give ?_
  simp [Stmt.outline, same, sameBody]

theorem doWhileStatement_twins :
    Twins onward related (fun statement => statement.outline.bare) (doWhileStatement nested)
      (doWhileStatement other) := by
  refine .here fun span place => twinned.starts (by decide) ?_
  refine (twinned.statements.weaken False.elim).bind fun statements statements' alike => ?_
  refine twinned.skips.beyond (twinned.starts (by decide) ?_)
  refine (condition_twins twinned).bind fun condition condition' same => ?_
  refine twinned.skips.beyond ((terminator_twins twinned.toTwinned).pass (.give ?_))
  simp [Stmt.outline, same, asStatement_bare span place alike]

theorem forExpressions_twins :
    Twins False related (List.map fun value => value.outline.bare) (forExpressions nested)
      (forExpressions other) := by
  refine (twinned.commaList (expression_twins twinned)).perhaps.bind fun found found' same => .give ?_
  cases found <;> cases found' <;> simp_all

theorem forStatement_twins :
    Twins onward related (fun statement => statement.outline.bare) (forStatement nested)
      (forStatement other) := by
  refine .here fun span place => twinned.starts (by decide) (twinned.opens (by decide) ?_)
  refine (forExpressions_twins twinned).bind fun initializers initializers' sameFirst => ?_
  refine twinned.divides (by decide) ?_
  refine (forExpressions_twins twinned).bind fun conditions conditions' sameSecond => ?_
  refine twinned.divides (by decide) ?_
  refine (forExpressions_twins twinned).bind fun steps steps' sameThird => ?_
  refine twinned.divides (by decide) ?_
  refine (loopBody_twins twinned (by decide) span place).bind fun body body' sameBody => .give ?_
  simp [Stmt.outline, sameFirst, sameSecond, sameThird, sameBody, Function.comp_def]

/-- The key, the mark and the target of a loop, without places. -/
theorem foreachTarget_twins :
    Twins False related (fun found => (found.1.map fun value => value.outline.bare, found.2.1,
      found.2.2.outline.bare)) (foreachTarget nested) (foreachTarget other) := by
  have arrow : Twins False related id (given do skip; mark "=>"; skip)
      (given do skip; mark "=>"; skip) :=
    (twinned.closes (by decide) twinned.skips).given
  refine (chain_twins twinned).perhaps.bind fun first first' same => ?_
  cases first with
  | none =>
      obtain rfl : first' = none := Option.map_eq_none_iff.mp same.symm
      refine (byRef_twins twinned.toTwinned).bind fun byRef byRef' sameRef => ?_
      refine (chain_twins twinned).bind fun target target' sameTarget => .give ?_
      obtain rfl : byRef = byRef' := sameRef
      simp [sameTarget]
  | some key =>
      obtain ⟨key', rfl, sameKey⟩ := Option.map_eq_some_iff.mp same.symm
      refine arrow.bind fun marked marked' sameMark => ?_
      obtain rfl : marked = marked' := sameMark
      split
      · refine (byRef_twins twinned.toTwinned).bind fun byRef byRef' sameRef => ?_
        refine (chain_twins twinned).bind fun target target' sameTarget => .give ?_
        obtain rfl : byRef = byRef' := sameRef
        simp [sameTarget, sameKey]
      · exact .give (by simp [sameKey])

theorem foreachStatement_twins :
    Twins onward related (fun statement => statement.outline.bare) (foreachStatement nested)
      (foreachStatement other) := by
  refine .here fun span place => twinned.starts (by decide) (twinned.opens (by decide) ?_)
  refine (expression_twins twinned).bind fun subject subject' same => ?_
  refine twinned.skips.beyond (twinned.starts (by decide) ?_)
  refine (foreachTarget_twins twinned).bind fun found found' sameFound => ?_
  obtain ⟨key, byRef, target⟩ := found
  obtain ⟨key', byRef', target'⟩ := found'
  simp only [Prod.mk.injEq] at sameFound
  obtain ⟨sameKey, rfl, sameTarget⟩ := sameFound
  refine twinned.divides (by decide) ?_
  refine (loopBody_twins twinned (by decide) span place).bind fun body body' sameBody => .give ?_
  simp [Stmt.outline, same, outlineOption_bare sameKey, sameTarget, sameBody]

/-! Exceptions -/

theorem catchClause_twins :
    Twins onward related (fun clause => (outlineCatch clause).bare) (catchClause nested)
      (catchClause other) := by
  refine twinned.skips.beyond (.here fun span place =>
    twinned.starts (by decide) (twinned.opens (by decide) ?_))
  refine (listedName_twins twinned.toTwinned).bind fun first first' same => ?_
  refine (twinned.many (twinned.divides (by decide) (listedName_twins twinned.toTwinned))).bind
    fun others others' alike => twinned.skips.beyond ?_
  refine (dollarName_twins twinned.toTwinned).perhaps.bind fun binding binding' sameBinding => ?_
  refine twinned.divides (by decide) ?_
  refine (block_twins twinned.toTwinned).bind fun block block' sameBlock => .give ?_
  obtain rfl : first = first' := same
  rw [List.map_id, List.map_id] at alike
  rw [Option.map_id, id, id] at sameBinding
  simp [outlineCatch, alike, sameBinding, sameBlock]

theorem finallyClause_twins :
    Twins onward related (fun block => (outlineBlock block).bare) (finallyClause nested)
      (finallyClause other) :=
  twinned.skips.beyond (twinned.starts (by decide) (block_twins twinned.toTwinned))

theorem tryStatement_twins :
    Twins onward related (fun statement => statement.outline.bare) (tryStatement nested)
      (tryStatement other) := by
  refine .here fun span place => twinned.starts (by decide) ?_
  refine (block_twins twinned.toTwinned).bind fun block block' sameBlock => ?_
  refine (twinned.many (catchClause_twins twinned)).bind fun catches catches' alike => ?_
  refine (finallyClause_twins twinned).perhaps.bind fun last last' sameLast => .give ?_
  simp [Stmt.outline, sameBlock, alike, outlineOptionBlock_bare sameLast, Function.comp_def]

/-! Simple statements -/

theorem wordStatement_twins {word : String} (solid : Lexeme.solidWord word = true)
    {build : Span → Option Expr → Stmt}
    (alike : ∀ span place {value value' : Option Expr},
      (outlineOption value).bare = (outlineOption value').bare →
      (build span value).outline.bare = (build place value').outline.bare) :
    Twins onward related (fun statement => statement.outline.bare) (wordStatement word build nested)
      (wordStatement word build other) := by
  refine .here fun span place => (twinned.keyword solid).pass ?_
  refine (twinned.skips.beyond (expression_twins twinned)).perhaps.bind fun value value' same => ?_
  refine twinned.skips.beyond ((terminator_twins twinned.toTwinned).pass (.give ?_))
  exact alike span place (outlineOption_bare same)

theorem echoStatement_twins :
    Twins onward related (fun statement => statement.outline.bare) (echoStatement nested)
      (echoStatement other) := by
  refine .here fun span place => twinned.starts (by decide) ?_
  refine (twinned.commaList (expression_twins twinned)).bind fun values values' alike => ?_
  refine twinned.skips.beyond ((terminator_twins twinned.toTwinned).pass (.give ?_))
  simp [Stmt.outline, alike, Function.comp_def]

theorem globalStatement_twins :
    Twins onward related (fun statement => statement.outline.bare) (globalStatement nested)
      (globalStatement other) := by
  refine .here fun span place => twinned.starts (by decide) ?_
  refine (twinned.commaList (dollarName_twins twinned.toTwinned)).bind fun names names' alike => ?_
  refine twinned.skips.beyond ((terminator_twins twinned.toTwinned).pass (.give ?_))
  rw [List.map_id, List.map_id] at alike
  simp [Stmt.outline, alike]

theorem staticStatement_twins :
    Twins onward related (fun statement => statement.outline.bare) (staticStatement nested)
      (staticStatement other) := by
  refine .here fun span place => twinned.starts (by decide) ?_
  refine (twinned.commaList (variableEntry_twins twinned.toTwinned)).bind fun entries entries' alike => ?_
  refine twinned.skips.beyond ((terminator_twins twinned.toTwinned).pass (.give ?_))
  simp [Stmt.outline, outlineVariables_bare _ alike, Function.comp_def]

theorem constStatement_twins :
    Twins onward related (fun statement => statement.outline.bare) (constStatement nested)
      (constStatement other) := by
  refine .here fun span place => twinned.starts (by decide) ?_
  refine (twinned.commaList (constantEntry_twins twinned.toTwinned)).bind fun entries entries' alike => ?_
  refine twinned.skips.beyond ((terminator_twins twinned.toTwinned).pass (.give ?_))
  simp [Stmt.outline, outlineConstants_bare alike, Function.comp_def]

omit twinned in
theorem outlineDirectives_bare {entries others : List (ConstantEntry Expr)}
    (alike : entries.map (fun entry => (entry.name.value, entry.value.outline.bare)) =
      others.map fun entry => (entry.name.value, entry.value.outline.bare)) :
    entries.map (fun entry => (outlineDirective entry).bare) =
      others.map fun entry => (outlineDirective entry).bare := by
  refine map_eq_of_map ?_ alike
  rintro ⟨_, _, _⟩ ⟨_, _, _⟩ same
  dsimp only at same
  obtain ⟨name, value⟩ := Prod.mk.inj same
  simp [outlineDirective, name, value]

theorem declareStatement_twins :
    Twins onward related (fun statement => statement.outline.bare) (declareStatement nested)
      (declareStatement other) := by
  refine .here fun span place => twinned.starts (by decide) (twinned.opens (by decide) ?_)
  refine (twinned.commaList (constantEntry_twins twinned.toTwinned)).bind fun entries entries' alike => ?_
  refine twinned.divides (by decide) ?_
  refine (bodyOrEnd_twins twinned.toTwinned).bind fun body body' sameBody => .give ?_
  simp [Stmt.outline, outlineDirectives_bare alike, outlineOptionBlock_bare sameBody,
    Function.comp_def]

theorem noopStatement_twins :
    Twins onward related (fun statement => statement.outline.bare) noopStatement noopStatement :=
  .here fun _ _ => (twinned.mark (by decide)).pass (.give (by simp [Stmt.outline]))

theorem expressionStatement_twins :
    Twins onward related (fun statement => statement.outline.bare) (expressionStatement nested)
      (expressionStatement other) := by
  refine .here fun span place => (expression_twins twinned).bind fun value value' same => ?_
  refine twinned.skips.beyond ((terminator_twins twinned.toTwinned).pass (.give ?_))
  simp [Stmt.outline, same]

/-! Namespaces and imports -/

theorem namespaceKeyword_twins :
    Twins onward related (fun _ => ()) (token Lexeme.namespaceKeyword)
      (token Lexeme.namespaceKeyword) :=
  (twinned.apart _ (by simp [Lexeme.spacedRules])).token

theorem bracedNamespace_twins :
    Twins onward related (fun statement => statement.outline.bare) (bracedNamespace nested)
      (bracedNamespace other) := by
  have name : Twins False related id (do let name ← listedName; skip; return name)
      (do let name ← listedName; skip; return name) :=
    (listedName_twins twinned.toTwinned).bind fun _ _ same => twinned.skips.beyond (.give same)
  refine .here fun span place => (namespaceKeyword_twins twinned).pass (twinned.skips.beyond ?_)
  refine name.perhaps.bind fun name name' same => twinned.opens (by decide) ?_
  refine (statementList_twins twinned.toTwinned).bind fun statements statements' alike => ?_
  refine (twinned.mark (by decide)).pass (.give ?_)
  rw [Option.map_id, id, id] at same
  simp [Stmt.outline, same, alike, Function.comp_def]

theorem namespaceStart_twins :
    Twins onward related (fun _ => ()) namespaceStart namespaceStart := by
  refine (namespaceKeyword_twins twinned).pass (twinned.skips.beyond ?_)
  refine ((twinned.lexeme Lexeme.kept_name).token.pass twinned.skips).perhaps.discard.pass ?_
  exact (twinned.mark (by decide)).orElse (twinned.mark (by decide))

theorem unbracedNamespace_twins :
    Twins onward related (fun statement => statement.outline.bare) (unbracedNamespace nested)
      (unbracedNamespace other) := by
  have group : Twins True related (List.map fun statement : Stmt => statement.outline.bare)
      (do absent namespaceStart; let statements ← nested.statement; skip; return statements)
      (do absent namespaceStart; let statements ← other.statement; skip; return statements) :=
    (namespaceStart_twins twinned).absent.beyond (twinned.statements.bind fun _ _ same =>
      twinned.skips.beyond (.give same))
  refine .here fun span place => (namespaceKeyword_twins twinned).pass (twinned.skips.beyond ?_)
  refine (neededName_twins twinned.toTwinned).bind fun name name' same => twinned.skips.beyond ?_
  refine (terminator_twins twinned.toTwinned).pass (twinned.skips.beyond ?_)
  refine (twinned.many group).bind fun groups groups' alike => .give ?_
  have shown := congrArg List.flatten alike
  rw [← List.map_flatten, ← List.map_flatten] at shown
  simp only [Stmt.outline, same, outlineStmts_eq_map, Outline.bare_node, Outline.bare_list,
    List.map_cons, List.map_map, Function.comp_def, shown]

theorem useKind_twins : Twins onward related id useKind useKind := by
  refine Twins.bind (Twins.orElse (twinned.lexeme (Lexeme.kept_keyword (by decide)))
    (twinned.lexeme (Lexeme.kept_keyword (by decide)))) fun word word' same => ?_
  exact twinned.skips.beyond (.give (congrArg lowerWord same))

/-- A name to import, without its place. -/
theorem useItem_twins :
    Twins onward related (fun item => (item.name, item.localName)) useItem useItem := by
  have localName : Twins False related id
      (do skip; keyword "as"; skip; return (← memberName).value)
      (do skip; keyword "as"; skip; return (← memberName).value) :=
    twinned.skips.beyond (twinned.starts (by decide) ((memberName_twins twinned.toTwinned).bind fun _ _ same =>
      .give same))
  refine .here fun span place => (useKind_twins twinned).perhaps.discard.beyond ?_
  refine (neededName_twins twinned.toTwinned).bind fun name name' same => ?_
  refine localName.perhaps.bind fun short short' sameShort => .give ?_
  rw [Option.map_id, id, id] at sameShort
  rw [same, sameShort]

theorem useGroup_twins :
    Twins onward related (List.map fun item => (item.name, item.localName)) (useGroup nested)
      (useGroup other) := by
  refine (neededName_twins twinned.toTwinned).bind fun start start' same => ?_
  refine (twinned.mark (by decide)).pass (twinned.opens (by decide) ?_)
  refine (twinned.commaList (useItem_twins twinned)).bind fun items items' alike => ?_
  refine twinned.skips.beyond ((twinned.mark (by decide)).perhaps.discard.pass ?_)
  refine twinned.closes (by decide) (.give ?_)
  rw [List.map_map, List.map_map, same]
  refine map_eq_of_map (fun item item' sameItem => ?_) alike
  obtain ⟨name, localName⟩ := Prod.mk.inj sameItem
  simp [name, localName]

theorem useStatement_twins :
    Twins onward related (fun statement => statement.outline.bare) (useStatement nested)
      (useStatement other) := by
  have group : Twins True related (List.map fun item : UseItem => (item.name, item.localName))
      (useGroup nested <|> (do return [← useItem])) (useGroup other <|> (do return [← useItem])) := by
    refine (useGroup_twins twinned).orElse ((useItem_twins twinned).bind fun _ _ same => ?_)
    exact .give (congrArg (fun shown => [shown]) same)
  refine .here fun span place => twinned.starts (by decide) ?_
  refine (useKind_twins twinned).perhaps.bind fun kind kind' sameKind => ?_
  refine (twinned.commaList group).bind fun groups groups' alike => ?_
  refine twinned.skips.beyond ((terminator_twins twinned.toTwinned).pass (.give ?_))
  rw [Option.map_id, id, id] at sameKind
  have items := congrArg List.flatten alike
  rw [← List.map_flatten, ← List.map_flatten] at items
  have shown : groups.flatten.map (fun item => item.outline.bare) =
      groups'.flatten.map fun item => item.outline.bare := by
    refine map_eq_of_map (fun item item' same => ?_) items
    obtain ⟨name, localName⟩ := Prod.mk.inj same
    simp [UseItem.outline, name, localName]
  simp only [Stmt.outline, sameKind, Outline.bare_node, Outline.bare_list, List.map_cons,
    List.map_map, Function.comp_def, shown]

/-! Declarations -/

theorem functionDeclaration_twins :
    Twins onward related (fun statement => statement.outline.bare) (functionDeclaration nested)
      (functionDeclaration other) := by
  refine .here fun span place => (attributes_twins twinned.toTwinned).beyond (twinned.starts (by decide) ?_)
  refine (byRef_twins twinned.toTwinned).bind fun byRef byRef' sameRef => ?_
  refine (neededName_twins twinned.toTwinned).bind fun name name' sameName => twinned.skips.beyond ?_
  refine (parameterList_twins twinned.toTwinned).bind fun parameters parameters' alike => ?_
  refine twinned.skips.beyond ((returnHint_twins twinned.toTwinned).perhaps.bind fun hint hint' sameHint => ?_)
  refine (block_twins twinned.toTwinned).bind fun body body' sameBody => .give ?_
  obtain rfl : byRef = byRef' := sameRef
  simp [Stmt.outline, Identifier.outline, sameName, alike, outlineHint_bare sameHint, sameBody,
    Function.comp_def]

theorem classDeclaration_twins :
    Twins onward related (fun statement => statement.outline.bare) (classDeclaration nested)
      (classDeclaration other) := by
  have kept : Lexeme.classModifier.Kept := Lexeme.kept_anyKeyword (by decide)
  have modifier : Twins True related id
      (do let modifier ← lexeme Lexeme.classModifier; skip; return lowerWord modifier)
      (do let modifier ← lexeme Lexeme.classModifier; skip; return lowerWord modifier) :=
    (twinned.lexeme kept).bind fun _ _ same => twinned.skips.beyond (.give (congrArg lowerWord same))
  refine .here fun span place => (attributes_twins twinned.toTwinned).beyond ?_
  refine (twinned.many modifier).later fun modifiers modifiers' sameModifiers => ?_
  refine twinned.starts (by decide) ?_
  refine (neededName_twins twinned.toTwinned).bind fun name name' sameName => twinned.skips.beyond ?_
  refine (extendsClause_twins twinned.toTwinned).perhaps.bind fun parent parent' sameParent => ?_
  refine (namesAfter_twins twinned.toTwinned (by decide)).bind fun names names' sameNames => ?_
  refine (twinned.classBodies.weaken False.elim).bind fun members members' alike => .give ?_
  rw [List.map_id, List.map_id] at sameModifiers
  rw [Option.map_id, id, id] at sameParent
  obtain rfl : names = names' := sameNames
  simp [Stmt.outline, outlineDeclaration, DeclarationKind.label, DeclarationKind.fields,
    Identifier.outline, sameName, sameModifiers, sameParent, alike, Function.comp_def]

theorem interfaceDeclaration_twins :
    Twins onward related (fun statement => statement.outline.bare) (interfaceDeclaration nested)
      (interfaceDeclaration other) := by
  refine .here fun span place => (attributes_twins twinned.toTwinned).beyond (twinned.starts (by decide) ?_)
  refine (neededName_twins twinned.toTwinned).bind fun name name' sameName => twinned.skips.beyond ?_
  refine (namesAfter_twins twinned.toTwinned (by decide)).bind fun names names' sameNames => ?_
  refine (twinned.classBodies.weaken False.elim).bind fun members members' alike => .give ?_
  obtain rfl : names = names' := sameNames
  simp [Stmt.outline, outlineDeclaration, DeclarationKind.label, DeclarationKind.fields,
    Identifier.outline, sameName, alike, Function.comp_def]

theorem traitDeclaration_twins :
    Twins onward related (fun statement => statement.outline.bare) (traitDeclaration nested)
      (traitDeclaration other) := by
  refine .here fun span place => (attributes_twins twinned.toTwinned).beyond (twinned.starts (by decide) ?_)
  refine (neededName_twins twinned.toTwinned).bind fun name name' sameName => twinned.skips.beyond ?_
  refine (twinned.classBodies.weaken False.elim).bind fun members members' alike => .give ?_
  simp [Stmt.outline, outlineDeclaration, DeclarationKind.label, DeclarationKind.fields,
    Identifier.outline, sameName, alike, Function.comp_def]

theorem enumDeclaration_twins :
    Twins onward related (fun statement => statement.outline.bare) (enumDeclaration nested)
      (enumDeclaration other) := by
  have word : Twins onward related (fun _ => ()) (token Lexeme.enumKeyword)
    (token Lexeme.enumKeyword) := (twinned.apart _ (by simp [Lexeme.spacedRules])).token
  refine .here fun span place => (attributes_twins twinned.toTwinned).beyond (word.pass ?_)
  refine twinned.skips.beyond ((neededName_twins twinned.toTwinned).bind fun name name' sameName => ?_)
  refine twinned.skips.beyond ((returnHint_twins twinned.toTwinned).perhaps.bind fun hint hint' sameHint => ?_)
  refine (namesAfter_twins twinned.toTwinned (by decide)).bind fun names names' sameNames => ?_
  refine (twinned.classBodies.weaken False.elim).bind fun members members' alike => .give ?_
  obtain rfl : names = names' := sameNames
  simp [Stmt.outline, outlineDeclaration, DeclarationKind.label, DeclarationKind.fields,
    Identifier.outline, sameName, outlineHint_bare sameHint, alike, Function.comp_def]

/-! All statements -/

theorem statement_twins :
    Twins onward related (List.map fun statement => statement.outline.bare) (statement nested)
      (statement other) := by
  have block : Twins onward related (fun statement : Stmt => statement.outline.bare)
      (.block <$> block nested) (.block <$> block other) :=
    (block_twins twinned.toTwinned).map fun _ _ same => by simpa [Stmt.outline] using same
  refine block.lone.orElse ((twinned.closingTags.weaken fun _ => trivial).orElse ?_)
  refine Twins.firstOf ?_
  simp only [List.forall_mem_cons, List.not_mem_nil, false_imp_iff, implies_true, and_true]
  refine ⟨ifStatement_twins twinned, whileStatement_twins twinned, doWhileStatement_twins twinned,
    forStatement_twins twinned, foreachStatement_twins twinned, switchStatement_twins twinned,
    tryStatement_twins twinned, wordStatement_twins twinned (by decide) ?_,
    echoStatement_twins twinned, wordStatement_twins twinned (by decide) ?_,
    wordStatement_twins twinned (by decide) ?_, globalStatement_twins twinned,
    staticStatement_twins twinned, bracedNamespace_twins twinned, unbracedNamespace_twins twinned,
    useStatement_twins twinned, constStatement_twins twinned, declareStatement_twins twinned,
    functionDeclaration_twins twinned, classDeclaration_twins twinned,
    interfaceDeclaration_twins twinned, traitDeclaration_twins twinned,
    enumDeclaration_twins twinned, noopStatement_twins twinned,
    expressionStatement_twins twinned⟩ <;>
  · intro span place value value' same
    simp [Stmt.outline, same]

end Reader

end PhpAudit
