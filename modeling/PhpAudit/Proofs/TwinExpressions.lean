import PhpAudit.Proofs.TwinParts

/-!
The readers of expressions on two texts that are twins as far as single lexemes and nested parts go.
-/

namespace PhpAudit

namespace Reader

variable {onward : Prop} {related : Cursor → Cursor → Prop} {nested other : Nested}
  (twinned : nested.ClassTwinned related other)

include twinned

/-! Arguments -/

theorem placeholder_twins :
    Twins onward related (fun argument => (outlineArgument argument).bare) placeholder
      placeholder :=
  .here fun _ _ => twinned.opens (by decide)
    ((twinned.mark (by decide)).ahead.pass (.give (by simp [outlineArgument, Expr.outline])))

theorem spreadArgument_twins :
    Twins onward related (fun argument => (outlineArgument argument).bare) (spreadArgument nested)
      (spreadArgument other) := by
  refine .here fun span place => twinned.opens (by decide) ?_
  refine (twinned.expressions.weaken False.elim).bind fun value value' same => .give ?_
  simp [outlineArgument, same]

theorem namedArgument_twins :
    Twins onward related (fun argument => (outlineArgument argument).bare) (namedArgument nested)
      (namedArgument other) := by
  refine (memberName_twins twinned.toTwinned).bind fun name name' sameName => twinned.skips.beyond ?_
  refine (twinned.lexeme Lexeme.kept_colon).token.pass (twinned.skips.beyond ?_)
  refine (twinned.expressions.weaken False.elim).bind fun value value' same => .give ?_
  simp [outlineArgument, same, sameName]

theorem plainArgument_twins :
    Twins onward related (fun argument => (outlineArgument argument).bare) (plainArgument nested)
      (plainArgument other) :=
  (twinned.expressions.weaken fun _ => trivial).bind fun _ _ same =>
    .give (by simp [outlineArgument, same])

theorem argument_twins :
    Twins onward related (fun argument => (outlineArgument argument).bare) (argument nested)
      (argument other) :=
  (placeholder_twins twinned).orElse ((spreadArgument_twins twinned).orElse
    ((namedArgument_twins twinned).orElse (plainArgument_twins twinned)))

theorem arguments_twins :
    Twins onward related (List.map fun argument => (outlineArgument argument).bare)
      (arguments nested) (arguments other) :=
  twinned.opens (by decide) ((twinned.trailingCommaList (argument_twins twinned)).bind
    fun _ _ alike => twinned.closes (by decide) (.give alike))

/-! Accesses -/

omit twinned in
/-- What was written in braces starts with a brace. -/
theorem braced_text {nested : Nested} {cursor later : Cursor} {found : Expr × String}
    (read : (braced nested).run cursor = some (found, later)) :
    Outline.bareSelector found.2 = "\x7b" := by
  obtain ⟨start, _, first, read⟩ := run_bind read
  cases first
  obtain ⟨_, opened, brace, read⟩ := run_bind read
  obtain ⟨_, spaced, blank, read⟩ := run_bind read
  obtain ⟨inner, behind, value, read⟩ := run_bind read
  obtain ⟨_, closing, blankToo, read⟩ := run_bind read
  obtain ⟨_, closed, braceToo, read⟩ := run_bind read
  cases read
  simp only [mark, token] at brace
  split at brace
  · rename_i length found
    cases brace
    have text := Lexeme.mark_eq_some found
    obtain ⟨rfl, bound⟩ := Lexeme.mark_length found
    obtain ⟨passed, passes⟩ := (skip.moves blank).trans ((nested.expression.moves value).trans
      ((skip.moves blankToo).trans ((mark "\x7d").moves braceToo)))
    have further := passes.offset
    rw [Cursor.offset_advance bound] at further
    obtain ⟨more, size⟩ : ∃ more, later.offset - cursor.offset = more + 1 :=
      ⟨later.offset - cursor.offset - 1, by
        have long : "\x7b".toList.length = 1 := rfl
        omega⟩
    simp only [Cursor.textUntil, size, Outline.bareSelector, String.toList_ofList]
    rw [text]
    rfl
  · cases brace

theorem braced_twins :
    Twins onward related (fun found => (found.1.outline.bare, Outline.bareSelector found.2))
      (braced nested) (braced other) := by
  have inner : Twins onward related (fun found : Expr × String => found.1.outline.bare)
      (braced nested) (braced other) := by
    refine .cursor fun start place => twinned.opens (by decide) ?_
    refine (twinned.expressions.weaken False.elim).bind fun inner inner' same => ?_
    exact twinned.closes (by decide) (.cursor fun _ _ => .give same)
  exact inner.knowing braced_text braced_text fun found found' same first second => by
    rw [same, first, second]

omit twinned in
/-- A name without a brace in front. -/
theorem bareSelector_eq {name other : String} (same : id name = id other) :
    Outline.bareSelector name = Outline.bareSelector other :=
  congrArg Outline.bareSelector same

theorem selector_twins :
    Twins onward related Outline.bareSelector (selector nested) (selector other) := by
  refine ((twinned.lexeme Lexeme.kept_identifier).sees fun _ _ => bareSelector_eq).orElse ?_
  refine ((dollarName_twins twinned.toTwinned).sees fun _ _ => bareSelector_eq).orElse ?_
  exact (braced_twins twinned).map fun _ _ same => (Prod.mk.inj same).2

theorem staticSelector_twins :
    Twins onward related Access.bare (staticSelector nested) (staticSelector other) := by
  refine Twins.orElse ((dollarName_twins twinned.toTwinned).map fun _ _ same => ?_) ?_
  · rw [Access.bare, Access.bare, bareSelector_eq same]
  refine Twins.orElse ((twinned.lexeme Lexeme.kept_identifier).map fun _ _ same => ?_) ?_
  · rw [Access.bare, Access.bare, bareSelector_eq same]
  refine (braced_twins twinned).bind fun found found' same => .give ?_
  obtain ⟨inner, text⟩ := found
  obtain ⟨inner', text'⟩ := found'
  obtain ⟨sameInner, sameText⟩ := Prod.mk.inj same
  dsimp only at sameInner sameText ⊢
  have label := Expr.label_eq_of_bare sameInner
  split
  · obtain ⟨_, _, rfl⟩ := Expr.exists_var label.symm
    rw [Access.bare, Access.bare, sameText]
  · rename_i apart
    split
    · obtain ⟨span, name, rfl⟩ := Expr.exists_var label
      exact absurd rfl (apart span name)
    · rw [Access.bare, Access.bare, sameText]

theorem memberAccess_twins :
    Twins onward related Access.bare (memberAccess nested) (memberAccess other) :=
  twinned.opens (by decide) ((selector_twins twinned).bind fun _ _ same =>
    .give (by rw [Access.bare, Access.bare, same]))

theorem nullsafeAccess_twins :
    Twins onward related Access.bare (nullsafeAccess nested) (nullsafeAccess other) :=
  twinned.opens (by decide) ((selector_twins twinned).bind fun _ _ same =>
    .give (by rw [Access.bare, Access.bare, same]))

theorem elementAccess_twins :
    Twins onward related Access.bare (elementAccess nested) (elementAccess other) := by
  refine twinned.opens (by decide) ?_
  refine (twinned.expressions.weaken False.elim).perhaps.bind fun index index' same => ?_
  refine twinned.closes (by decide) (.give ?_)
  rw [Access.bare, Access.bare, outlineOption_bare same]

theorem access_twins :
    Twins onward related Access.bare (access nested) (access other) := by
  refine twinned.skips.beyond ?_
  refine (memberAccess_twins twinned).orElse ((nullsafeAccess_twins twinned).orElse ?_)
  refine Twins.orElse (twinned.opens (by decide) (staticSelector_twins twinned)) ?_
  refine (elementAccess_twins twinned).orElse ?_
  refine Twins.orElse ((arguments_twins twinned).map fun _ _ alike => ?_) ?_
  · rw [Access.bare, Access.bare, alike]
  · exact ((twinned.mark (by decide)).pass (.give rfl)).orElse
      ((twinned.mark (by decide)).pass (.give rfl))

/-! Primary expressions -/

theorem parenthesized_twins :
    Twins onward related (fun value => value.outline.bare) (parenthesized nested)
      (parenthesized other) := by
  refine .here fun span place => twinned.opens (by decide) ?_
  refine (twinned.expressions.weaken False.elim).bind fun inner inner' same => ?_
  exact twinned.closes (by decide) (.give (by simp [Expr.outline, same]))

theorem staticMark_twins : Twins False related id staticMark staticMark :=
  ((twinned.keyword (by decide)).pass twinned.skips).given

theorem closureUse_twins :
    Twins onward related (fun item => item.outline.bare) closureUse closureUse := by
  refine .here fun span place => (byRef_twins twinned.toTwinned).later fun byRef byRef' sameRef => ?_
  refine (dollarName_twins twinned.toTwinned).bind fun name name' sameName => .give ?_
  obtain rfl : byRef = byRef' := sameRef
  obtain rfl : name = name' := sameName
  simp [ClosureUse.outline]

theorem closureUses_twins :
    Twins onward related (List.map fun item => item.outline.bare) (closureUses nested)
      (closureUses other) := by
  refine twinned.starts (by decide) (twinned.opens (by decide) ?_)
  refine (twinned.commaList (closureUse_twins twinned)).bind fun uses uses' alike => ?_
  refine twinned.skips.beyond ((twinned.mark (by decide)).perhaps.discard.pass ?_)
  exact twinned.closes (by decide) (twinned.skips.beyond (.give alike))

theorem closure_twins :
    Twins onward related (fun value => value.outline.bare) (closure nested) (closure other) := by
  refine .here fun span place => (staticMark_twins twinned).later fun fixed fixed' sameFixed => ?_
  refine twinned.starts (by decide) ?_
  refine (byRef_twins twinned.toTwinned).bind fun byRef byRef' sameRef => ?_
  refine (parameterList_twins twinned.toTwinned).bind fun parameters parameters' alike => ?_
  refine twinned.skips.beyond ((closureUses_twins twinned).perhaps.bind fun uses uses' sameUses => ?_)
  refine (returnHint_twins twinned.toTwinned).perhaps.bind fun hint hint' sameHint => ?_
  refine (block_twins twinned.toTwinned).bind fun body body' sameBody => .give ?_
  obtain rfl : fixed = fixed' := sameFixed
  obtain rfl : byRef = byRef' := sameRef
  have shown : (uses.getD []).map (fun item => item.outline.bare) =
      (uses'.getD []).map fun item => item.outline.bare := by
    cases uses <;> cases uses' <;> simp_all
  simp [Expr.outline, alike, shown, outlineHint_bare sameHint, sameBody, Function.comp_def]

theorem arrowFunction_twins :
    Twins onward related (fun value => value.outline.bare) (arrowFunction nested)
      (arrowFunction other) := by
  refine .here fun span place => (staticMark_twins twinned).later fun fixed fixed' sameFixed => ?_
  refine twinned.starts (by decide) ?_
  refine (byRef_twins twinned.toTwinned).bind fun byRef byRef' sameRef => ?_
  refine (parameterList_twins twinned.toTwinned).bind fun parameters parameters' alike => ?_
  refine twinned.skips.beyond ((returnHint_twins twinned.toTwinned).perhaps.bind fun hint hint' sameHint => ?_)
  refine twinned.opens (by decide) ?_
  refine (twinned.ternaries.weaken False.elim).bind fun result result' sameResult => .give ?_
  obtain rfl : fixed = fixed' := sameFixed
  obtain rfl : byRef = byRef' := sameRef
  simp [Expr.outline, alike, outlineHint_bare sameHint, sameResult, Function.comp_def]

omit twinned in
/-- Lists of arguments that may be missing. -/
theorem arguments_getD {found second : Option (List (Argument Expr))}
    (same : found.map (List.map fun argument => (outlineArgument argument).bare) =
      second.map (List.map fun argument => (outlineArgument argument).bare)) :
    (found.getD []).map (fun argument => (outlineArgument argument).bare) =
      (second.getD []).map fun argument => (outlineArgument argument).bare := by
  cases found <;> cases second <;> simp_all

theorem anonymousClass_twins :
    Twins onward related (fun found => (found.1.outline.bare,
      found.2.map fun argument => (outlineArgument argument).bare)) (anonymousClass nested)
      (anonymousClass other) := by
  refine .here fun span place => (attributes_twins twinned.toTwinned).beyond (twinned.starts (by decide) ?_)
  refine (arguments_twins twinned).perhaps.bind fun arguments arguments' sameArguments => ?_
  refine twinned.skips.beyond ((extendsClause_twins twinned.toTwinned).perhaps.bind
    fun parent parent' sameParent => ?_)
  refine (namesAfter_twins twinned.toTwinned (by decide)).bind fun names names' sameNames => ?_
  refine (twinned.classBodies.weaken False.elim).bind fun members members' alike => .give ?_
  rw [Option.map_id, id, id] at sameParent
  obtain rfl : names = names' := sameNames
  simp [Expr.outline, sameParent, alike, arguments_getD sameArguments, Function.comp_def]

theorem nameOrLiteral_twins :
    Twins onward related (fun value => value.outline.bare) nameOrLiteral nameOrLiteral := by
  refine .here fun span place => ?_
  refine (twinned.lexeme Lexeme.kept_name).bind fun text text' same => .give ?_
  obtain rfl : text = text' := same
  split
  · rfl
  · split <;> rfl

theorem plainVariable_twins :
    Twins onward related (fun value => value.outline.bare) plainVariable plainVariable := by
  refine .here fun span place => (dollarName_twins twinned.toTwinned).bind fun name name' same => .give ?_
  obtain rfl : name = name' := same
  rfl

theorem classStep_twins : Twins onward related Access.bare classStep classStep := by
  have named : ∀ {name name' : String}, id name = id name' → name = name' := id
  refine twinned.skips.beyond (Twins.orElse ?_ ?_)
  · refine twinned.opens (by decide) ?_
    refine ((dollarName_twins twinned.toTwinned).orElse (twinned.lexeme Lexeme.kept_identifier)).bind ?_
    exact fun _ _ same => .give (by rw [named same])
  · refine twinned.opens (by decide) (Twins.orElse ?_ ?_)
    · exact (dollarName_twins twinned.toTwinned).map fun _ _ same => by rw [named same]
    · exact (twinned.lexeme Lexeme.kept_identifier).map fun _ _ same => by rw [named same]

theorem dynamicClass_twins :
    Twins onward related (fun value => value.outline.bare) (dynamicClass nested)
      (dynamicClass other) := by
  refine (plainVariable_twins twinned).bind fun base base' same => ?_
  exact (twinned.many (classStep_twins twinned)).bind fun _ _ alike =>
    .give (Expr.accessAll_bare same alike)

theorem newExpression_twins :
    Twins onward related (fun value => value.outline.bare) (newExpression nested)
      (newExpression other) := by
  have trailing : Twins False related
      (Option.map (List.map fun argument => (outlineArgument argument).bare))
      (perhaps do skip; arguments nested) (perhaps do skip; arguments other) :=
    (twinned.skips.beyond (arguments_twins twinned)).perhaps
  refine .here fun span place => twinned.starts (by decide) (Twins.orElse ?_ ?_)
  · refine (anonymousClass_twins twinned).bind fun found found' same => ?_
    obtain ⟨target, arguments⟩ := found
    obtain ⟨target', arguments'⟩ := found'
    obtain ⟨sameTarget, alike⟩ := Prod.mk.inj same
    refine trailing.discard.pass (.give ?_)
    simp_all [Expr.outline, Function.comp_def]
  · refine ((parenthesized_twins twinned).orElse ((dynamicClass_twins twinned).orElse
      (nameOrLiteral_twins twinned))).bind fun target target' sameTarget => ?_
    refine trailing.bind fun arguments arguments' alike => .give ?_
    simp [Expr.outline, sameTarget, arguments_getD alike, Function.comp_def]

theorem matchArm_twins :
    Twins onward related (fun arm => (outlineArm arm).bare) (matchArm nested) (matchArm other) := by
  have conditions : Twins onward related (List.map fun value : Expr => value.outline.bare)
      ((do keyword "default"; return []) <|> commaList nested.limit nested.expression)
      ((do keyword "default"; return []) <|> commaList other.limit other.expression) :=
    Twins.orElse ((twinned.keyword (by decide)).pass (.give rfl))
      (twinned.commaList twinned.expressions)
  refine .here fun span place => conditions.bind fun conditions conditions' alike => ?_
  refine twinned.divides (by decide) ?_
  refine (twinned.expressions.weaken False.elim).bind fun result result' same => .give ?_
  simp only [outlineArm, isEmpty_eq_of_map alike]
  split
  · simp [same]
  · simp [same, alike, Function.comp_def]

theorem matchExpression_twins :
    Twins onward related (fun value => value.outline.bare) (matchExpression nested)
      (matchExpression other) := by
  have known : Lexeme.keywordCall "match" ∈ Lexeme.spacedRules := by simp [Lexeme.spacedRules]
  refine .here fun span place => (twinned.apart _ known).token.pass ?_
  refine twinned.divides (by decide) ?_
  refine (twinned.expressions.weaken False.elim).bind fun subject subject' same => ?_
  refine twinned.divides (by decide) (twinned.opens (by decide) ?_)
  refine (twinned.trailingCommaList (matchArm_twins twinned)).bind fun arms arms' alike => ?_
  refine twinned.closes (by decide) (.give ?_)
  simp [Expr.outline, same, alike, Function.comp_def]

/-! Arrays -/

theorem spreadItem_twins :
    Twins onward related (fun item => (outlineItem item).bare) (spreadItem nested)
      (spreadItem other) := by
  refine .here fun span place => twinned.opens (by decide) ?_
  refine (twinned.expressions.weaken False.elim).bind fun value value' same => .give ?_
  simp [outlineItem, outlineOption, same]

theorem plainItem_twins :
    Twins onward related (fun item => (outlineItem item).bare) (plainItem nested)
      (plainItem other) := by
  refine .here fun span place => ?_
  refine (twinned.expressions.weaken fun _ => trivial).bind fun first first' same => ?_
  refine Twins.orElse (twinned.divides (by decide) ?_) (.give ?_)
  · refine (byRef_twins twinned.toTwinned).bind fun byRef byRef' sameRef => ?_
    refine (twinned.expressions.weaken False.elim).bind fun value value' sameValue => .give ?_
    obtain rfl : byRef = byRef' := sameRef
    simp [outlineItem, outlineOption, same, sameValue]
  · simp [outlineItem, outlineOption, same]

theorem referenceItem_twins :
    Twins onward related (fun item => (outlineItem item).bare) (referenceItem nested)
      (referenceItem other) := by
  refine .here fun span place => twinned.opens (by decide) ?_
  refine (twinned.expressions.weaken False.elim).bind fun value value' same => .give ?_
  simp [outlineItem, outlineOption, same]

theorem arrayItem_twins :
    Twins onward related (fun item => (outlineItem item).bare) (arrayItem nested)
      (arrayItem other) :=
  (spreadItem_twins twinned).orElse ((plainItem_twins twinned).orElse (referenceItem_twins twinned))

theorem arrayItemsFrom_twins {limit bound : Nat} {cursor place : Cursor}
    (relation : related cursor place) (below : cursor.rest.length < limit)
    (belowToo : place.rest.length < bound) :
    ∃ items later others behind, (arrayItemsFrom nested limit).run cursor = some (items, later) ∧
      (arrayItemsFrom other bound).run place = some (others, behind) ∧
      items.map (fun item => (outlineItem item).bare) =
        others.map (fun item => (outlineItem item).bare) ∧ related later behind := by
  induction limit generalizing bound cursor place with
  | zero => omega
  | succ limit ih =>
      cases bound with
      | zero => omega
      | succ bound =>
          have comma : Twins True related (fun _ => ()) (do skip; mark ","; skip)
            (do skip; mark ","; skip) := twinned.closes (by decide) twinned.skips
          obtain ⟨item, middle, item', between, read, readToo, same, kept⟩ :=
            (arrayItem_twins twinned).perhaps_runs relation
          have shown : item.toList.map (fun item => (outlineItem item).bare) =
              item'.toList.map fun item => (outlineItem item).bare := by
            cases item <;> cases item' <;> simp_all
          have shorter := length_le_of_run read
          have shorterToo := length_le_of_run readToo
          rcases comma.cases kept with ⟨fails, failsToo⟩ |
            ⟨_, behind, _, beyond, taken, takenToo, -, keptToo, moves⟩
          · refine ⟨item.toList ++ [], middle, item'.toList ++ [], between, ?_, ?_, ?_, kept⟩
            · rw [arrayItemsFrom, run_bind_of_some read, run_bind_of_some fails.perhaps]
              rfl
            · rw [arrayItemsFrom, run_bind_of_some readToo, run_bind_of_some failsToo.perhaps]
              rfl
            · rw [List.append_nil, List.append_nil, shown]
          · obtain ⟨onward, onwardToo⟩ := moves trivial
            obtain ⟨rest, later, rest', last, others, othersToo, alike, keptLast⟩ :=
              ih keptToo (show behind.rest.length < limit by omega)
                (show beyond.rest.length < bound by omega)
            refine ⟨item.toList ++ rest, later, item'.toList ++ rest', last, ?_, ?_, ?_, keptLast⟩
            · rw [arrayItemsFrom, run_bind_of_some read, run_bind_of_some (run_perhaps_some taken)]
              simp only [Option.isSome_some, if_true]
              exact run_bind_of_some others
            · rw [arrayItemsFrom, run_bind_of_some readToo,
                run_bind_of_some (run_perhaps_some takenToo)]
              simp only [Option.isSome_some, if_true]
              exact run_bind_of_some othersToo
            · rw [List.map_append, List.map_append, shown, alike]

theorem arrayItems_twins :
    Twins False related (List.map fun item => (outlineItem item).bare) (arrayItems nested)
      (arrayItems other) := by
  intro cursor place relation
  obtain ⟨below, belowToo⟩ := twinned.short cursor place relation
  obtain ⟨_, _, _, _, read, readToo, alike, kept⟩ := arrayItemsFrom_twins twinned relation
    (Nat.lt_succ_of_lt below) (Nat.lt_succ_of_lt belowToo)
  rw [arrayItems, arrayItems, read, readToo]
  exact .some ⟨alike, kept, False.elim⟩

theorem shortArray_twins :
    Twins onward related (fun value => value.outline.bare) (shortArray nested)
      (shortArray other) := by
  refine .here fun span place => twinned.opens (by decide) ?_
  refine (arrayItems_twins twinned).bind fun items items' alike => twinned.closes (by decide) ?_
  exact .give (by simp [Expr.outline, alike, Function.comp_def])

theorem wordArray_twins {word : String} (form : ArrayForm)
    (known : Lexeme.keywordCall word ∈ Lexeme.spacedRules) :
    Twins onward related (fun value => value.outline.bare) (wordArray word form nested)
      (wordArray word form other) := by
  refine .here fun span place => (twinned.apart _ known).token.pass ?_
  refine twinned.divides (by decide) ?_
  refine (arrayItems_twins twinned).bind fun items items' alike => twinned.closes (by decide) ?_
  exact .give (by simp [Expr.outline, alike, Function.comp_def])

/-! Literals and variables -/

theorem stringLiteral_twins :
    Twins onward related (fun value => value.outline.bare) stringLiteral stringLiteral := by
  refine .here fun span place => ?_
  refine ((twinned.lexeme Lexeme.kept_heredoc).orElse
    (twinned.lexeme Lexeme.kept_string)).bind fun text text' same => .give ?_
  obtain rfl : text = text' := same
  rfl

theorem numberLiteral_twins :
    Twins onward related (fun value => value.outline.bare) numberLiteral numberLiteral := by
  refine .here fun span place => ?_
  refine (twinned.lexeme Lexeme.kept_number).bind fun text text' same => .give ?_
  obtain rfl : text = text' := same
  rfl

theorem variableVariable_twins :
    Twins onward related (fun value => value.outline.bare) (variableVariable nested)
      (variableVariable other) := by
  refine .here fun span place => (twinned.mark (by decide)).pass ?_
  refine Twins.bind (Twins.orElse (plainVariable_twins twinned)
    ((braced_twins twinned).map fun _ _ same => (Prod.mk.inj same).1)) fun inner inner' same => ?_
  exact .give (by simp [Expr.outline, same])

theorem primary_twins :
    Twins onward related (fun value => value.outline.bare) (primary nested) (primary other) := by
  refine (parenthesized_twins twinned).orElse ((closure_twins twinned).orElse ?_)
  refine (arrowFunction_twins twinned).orElse ((newExpression_twins twinned).orElse ?_)
  refine (matchExpression_twins twinned).orElse ((shortArray_twins twinned).orElse ?_)
  refine (wordArray_twins twinned .long (by simp [Lexeme.spacedRules])).orElse ?_
  refine (wordArray_twins twinned .list (by simp [Lexeme.spacedRules])).orElse ?_
  refine (stringLiteral_twins twinned).orElse ((numberLiteral_twins twinned).orElse ?_)
  refine (plainVariable_twins twinned).orElse ((variableVariable_twins twinned).orElse ?_)
  exact nameOrLiteral_twins twinned

theorem chain_twins :
    Twins onward related (fun value => value.outline.bare) (chain nested) (chain other) := by
  refine (primary_twins twinned).bind fun base base' same => ?_
  exact (twinned.many (access_twins twinned)).bind fun _ _ alike =>
    .give (Expr.accessAll_bare same alike)

/-! Operators -/

theorem castOperator_twins : Twins onward related id castOperator castOperator := by
  refine (twinned.apart _ (by simp [Lexeme.spacedRules])).bind fun text text' same => .give ?_
  obtain rfl : text = text' := same
  rfl

theorem leadingOperator_twins : Twins onward related id leadingOperator leadingOperator := by
  have close : ∀ entry ∈ markOperators, Lexeme.closeMark entry.1.toList = true := by decide
  refine (castOperator_twins twinned).orElse (Twins.choice ?_ ?_)
  · rintro ⟨text, operator⟩ known reader rest
    exact ((twinned.mark (close _ known)).pass (.give rfl)).orElse rest
  · exact (twinned.keyword (by decide)).pass (.give rfl)

theorem leadingOperation_twins :
    Twins onward related (fun value => value.outline.bare) (leadingOperation nested)
      (leadingOperation other) := by
  refine .here fun span place => (leadingOperator_twins twinned).bind fun operator operator' same =>
    twinned.skips.beyond ?_
  refine (twinned.unaries.weaken False.elim).bind fun operand operand' sameOperand => .give ?_
  obtain rfl : operator = operator' := same
  simp [Expr.outline, sameOperand]

theorem wordOperation_twins {rule : Reader UnaryOperator} (twins : Twins onward related id rule rule) :
    Twins onward related (fun value => value.outline.bare) (wordOperation rule nested)
      (wordOperation rule other) := by
  refine .here fun span place => twins.bind fun operator operator' same => twinned.skips.beyond ?_
  refine (twinned.ternaries.weaken False.elim).bind fun operand operand' sameOperand => .give ?_
  obtain rfl : operator = operator' := same
  simp [Expr.outline, sameOperand]

/-- The parts of a conditional expression behind its condition, without places. -/
theorem ternaryTail_twins :
    Twins onward related
      (fun tail => (tail.1.map fun value => value.outline.bare, tail.2.outline.bare))
      (ternaryTail nested) (ternaryTail other) := by
  refine twinned.skips.beyond (Twins.orElse (twinned.opens (by decide) ?_) ?_)
  · exact (twinned.binaries.weaken False.elim).bind fun _ _ same => .give (by rw [same])
  · refine (twinned.lexeme Lexeme.kept_question).token.pass (twinned.skips.beyond ?_)
    refine (twinned.ternaries.weaken False.elim).bind fun whenTrue whenTrue' sameTrue => ?_
    refine twinned.skips.beyond ((twinned.lexeme Lexeme.kept_colon).token.pass ?_)
    refine twinned.skips.beyond ((twinned.binaries.weaken False.elim).bind ?_)
    exact fun whenFalse whenFalse' sameFalse => .give (by simp [sameTrue, sameFalse])

omit twinned in
theorem ternaryFold_bare {condition condition' : Expr} {tails tails' : List (Option Expr × Expr)}
    (same : condition.outline.bare = condition'.outline.bare)
    (alike : tails.map (fun tail =>
        (tail.1.map fun value => value.outline.bare, tail.2.outline.bare)) =
      tails'.map fun tail => (tail.1.map fun value => value.outline.bare, tail.2.outline.bare)) :
    (tails.foldl (fun result (whenTrue, whenFalse) =>
        Expr.ternary result.span result whenTrue whenFalse) condition).outline.bare =
      (tails'.foldl (fun result (whenTrue, whenFalse) =>
        Expr.ternary result.span result whenTrue whenFalse) condition').outline.bare := by
  induction tails generalizing condition condition' tails' with
  | nil =>
      obtain rfl : tails' = [] := List.map_eq_nil_iff.mp alike.symm
      exact same
  | cons tail rest ih =>
      obtain ⟨tail', rest', rfl, first, behind⟩ := List.map_eq_cons_iff.mp alike.symm
      obtain ⟨whenTrue, whenFalse⟩ := tail
      obtain ⟨whenTrue', whenFalse'⟩ := tail'
      obtain ⟨sameTrue, sameFalse⟩ := Prod.mk.inj first
      rw [List.foldl_cons, List.foldl_cons]
      refine ih ?_ behind.symm
      dsimp only at sameTrue sameFalse
      simp [Expr.outline, same, outlineOption_bare sameTrue, sameFalse]

theorem ternaryFrom_twins {condition condition' : Expr}
    (same : condition.outline.bare = condition'.outline.bare) :
    Twins False related (fun value => value.outline.bare) (ternaryFrom nested condition)
      (ternaryFrom other condition') :=
  (twinned.many (ternaryTail_twins twinned)).bind fun _ _ alike =>
    .give (ternaryFold_bare same alike)

theorem yieldFrom_twins (span place : Span) :
    Twins False related (fun value => value.outline.bare) (yieldFrom nested span)
      (yieldFrom other place) := by
  refine twinned.skips.beyond (twinned.starts (by decide) ?_)
  refine (twinned.ternaries.weaken False.elim).bind fun value value' same => .give ?_
  simp [Expr.outline, outlineOption, same]

theorem yieldValue_twins (span place : Span) :
    Twins False related (fun value => value.outline.bare) (yieldValue nested span)
      (yieldValue other place) := by
  refine twinned.skips.beyond ?_
  refine (twinned.binaries.weaken False.elim).bind fun first first' same => Twins.orElse ?_ ?_
  · refine twinned.closes (by decide) ?_
    refine (twinned.skips.beyond (twinned.ternaries.weaken False.elim)).perhaps.bind
      fun value value' sameValue => .give ?_
    simp [Expr.outline, outlineOption_bare sameValue, outlineOption, same]
  · refine (ternaryFrom_twins twinned same).bind fun value value' sameValue => .give ?_
    simp [Expr.outline, outlineOption, sameValue]

theorem yieldExpression_twins :
    Twins onward related (fun value => value.outline.bare) (yieldExpression nested)
      (yieldExpression other) := by
  refine .here fun span place => (twinned.keyword (by decide)).pass ?_
  refine (yieldFrom_twins twinned span place).orElse ?_
  exact (yieldValue_twins twinned span place).orElse (.give (by simp [Expr.outline, outlineOption]))

theorem keywordExpression_twins :
    Twins onward related (fun value => value.outline.bare) (keywordExpression nested)
      (keywordExpression other) := by
  refine (wordOperation_twins twinned ((twinned.keyword (by decide)).pass (.give rfl))).orElse ?_
  refine (yieldExpression_twins twinned).orElse ?_
  refine (wordOperation_twins twinned ((twinned.keyword (by decide)).pass (.give rfl))).orElse ?_
  have load : Lexeme.loadKeyword.Kept := Lexeme.kept_anyKeyword (by decide)
  refine wordOperation_twins twinned ((twinned.lexeme load).bind fun word word' same => .give ?_)
  obtain rfl : word = word' := same
  rfl

theorem assignOperator_twins : Twins onward related id assignOperator assignOperator := by
  have close : ∀ entry ∈ assignOperators, Lexeme.closeMark entry.1.toList = true := by decide
  refine Twins.choice ?_ ((twinned.lexeme Lexeme.kept_plainAssign).token.pass (.give rfl))
  rintro ⟨text, operator⟩ known reader rest
  exact ((twinned.mark (close _ known)).pass (.give rfl)).orElse rest

theorem chainOrAssignment_twins :
    Twins onward related (fun value => value.outline.bare) (chainOrAssignment nested)
      (chainOrAssignment other) := by
  refine (chain_twins twinned).bind fun target target' same => Twins.orElse ?_ (.give same)
  refine twinned.skips.beyond ((assignOperator_twins twinned).bind
    fun operator operator' sameOperator => twinned.skips.beyond ?_)
  refine (byRef_twins twinned.toTwinned).bind fun byRef byRef' sameRef => ?_
  refine (twinned.ternaries.weaken False.elim).bind fun value value' sameValue => .give ?_
  obtain rfl : operator = operator' := sameOperator
  obtain rfl : byRef = byRef' := sameRef
  simp [Expr.outline, same, sameValue]

theorem unary_twins :
    Twins onward related (fun value => value.outline.bare) (unary nested) (unary other) :=
  (leadingOperation_twins twinned).orElse ((keywordExpression_twins twinned).orElse
    (chainOrAssignment_twins twinned))

/-! Operators between operands -/

theorem instanceOfWord_twins : Twins onward related id instanceOfWord instanceOfWord :=
  twinned.instanceOfs.weaken fun _ => trivial

omit twinned in
/-- The operators between operands where the text reads as one in front of an operand. -/
def freeOperator : Reader BinaryOperator :=
  binaryMarks.foldr
    (fun (text, excluded, operator) others =>
      (do
        token (Lexeme.unstuck (Lexeme.operatorMark text.toList excluded.toList))
        return operator) <|> others)
    instanceOfWord

omit twinned in
theorem binaryOperator_run {cursor : Cursor} (free : Lexeme.stuck cursor.rest = false) :
    binaryOperator.run cursor = freeOperator.run cursor := by
  unfold binaryOperator freeOperator
  generalize binaryMarks = marks
  induction marks with
  | nil => rfl
  | cons entry rest ih =>
      obtain ⟨text, excluded, operator⟩ := entry
      rw [List.foldr_cons, List.foldr_cons]
      refine run_orElse_congr (run_bind_congr ?_) ih
      simp [token, Lexeme.unstuck, free, Lexeme.operatorMark]

theorem freeOperator_twins : Twins onward related id freeOperator freeOperator := by
  refine Twins.choice ?_ (instanceOfWord_twins twinned)
  rintro ⟨text, excluded, operator⟩ known reader rest
  exact ((twinned.lexeme (Lexeme.kept_operator known)).token.pass (.give rfl)).orElse rest

theorem operation_twins :
    Twins onward related (fun pair => (pair.1, pair.2.outline.bare)) (operation nested)
      (operation other) := by
  intro cursor place relation
  cases stuck : Lexeme.stuck cursor.rest with
  | true =>
      obtain ⟨fails, failsToo⟩ := twinned.stuck relation stuck
      exact Twins.of_fails fails failsToo
  | false =>
      have settled : Lexeme.Settled Lexeme.stuck := fun ahead _ => Lexeme.stuck_append ahead
      have free := binaryOperator_run stuck
      have freeToo := binaryOperator_run (twinned.settled settled relation ▸ stuck)
      rw [operation, operation, run_bind_congr free, run_bind_congr freeToo]
      have twins : Twins onward related
          (fun pair : BinaryOperator × Expr => (pair.1, pair.2.outline.bare))
          (do let operator ← freeOperator; skip; let operand ← nested.unary
              return (operator, operand))
          (do let operator ← freeOperator; skip; let operand ← other.unary
              return (operator, operand)) := by
        refine (freeOperator_twins twinned).bind fun operator operator' same => ?_
        refine twinned.skips.beyond ((twinned.unaries.weaken False.elim).bind ?_)
        intro operand operand' sameOperand
        obtain rfl : operator = operator' := same
        exact .give (by rw [sameOperand])
      exact twins relation

theorem binary_twins :
    Twins onward related (fun value => value.outline.bare) (binary nested) (binary other) := by
  refine (unary_twins twinned).bind fun first first' same => ?_
  exact (twinned.many (twinned.skips.beyond (operation_twins twinned))).bind fun _ _ alike =>
    .give (Expr.foldOperators_bare same alike)

theorem ternary_twins :
    Twins onward related (fun value => value.outline.bare) (ternary nested) (ternary other) :=
  (binary_twins twinned).bind fun _ _ same => ternaryFrom_twins twinned same

theorem lowOperator_twins : Twins onward related id lowOperator lowOperator := by
  have solid : ∀ entry ∈ lowOperators, Lexeme.solidWord entry.1 = true := by decide
  refine Twins.choice ?_ .fail
  rintro ⟨word, operator⟩ known reader rest
  exact ((twinned.keyword (solid _ known)).pass (.give rfl)).orElse rest

theorem expression_twins :
    Twins onward related (fun value => value.outline.bare) (expression nested)
      (expression other) := by
  have step : Twins True related (fun pair : BinaryOperator × Expr => (pair.1, pair.2.outline.bare))
      (do skip; let operator ← lowOperator; skip; let operand ← nested.ternary
          return (operator, operand))
      (do skip; let operator ← lowOperator; skip; let operand ← other.ternary
          return (operator, operand)) := by
    refine twinned.skips.beyond ((lowOperator_twins twinned).bind fun operator operator' same => ?_)
    refine twinned.skips.beyond ((twinned.ternaries.weaken False.elim).bind ?_)
    intro operand operand' sameOperand
    obtain rfl : operator = operator' := same
    exact .give (by rw [sameOperand])
  refine (ternary_twins twinned).bind fun first first' same => ?_
  exact (twinned.many step).bind fun _ _ alike => .give (Expr.foldOperators_bare same alike)

end Reader

end PhpAudit
