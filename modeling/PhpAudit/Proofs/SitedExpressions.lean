import PhpAudit.Proofs.SourcePlaces

/-!
Expressions, hints and members stand where the text says. Each rule of the grammar puts its parts
together at a place it has met, and only a few rules keep a piece of the text, which they take at
the place they name.
-/

namespace PhpAudit

open Outline

variable {text : List Char}

namespace Reader

variable {start : Cursor} {nested : Nested}

/-! Names and hints -/

theorem neededName_sited (inText : start.point.In text) :
    Gives start neededName fun name _ => name.outline.Sited text := by
  unfold neededName
  refine .written inText (copies_lexeme _) fun span stored written => ?_
  split
  · exact .pass fun _ => .give fun _ _ => sited_identifier written
  · exact .give fun _ _ => sited_identifier written

theorem memberName_sited (inText : start.point.In text) :
    Gives start memberName fun name _ => name.outline.Sited text := by
  unfold memberName
  refine .written inText (copies_lexeme _) fun span stored written => ?_
  exact .give fun _ _ => sited_identifier written

theorem hintName_sited (inText : start.point.In text) :
    Gives start hintName fun hint _ => hint.outline.Sited text := by
  unfold hintName
  refine .written inText (copies_lexeme _) fun span stored written => .give fun _ _ => ?_
  split
  · exact .branch rfl written.placed (by simp)
  · split
    · exact .branch rfl written.placed (by simp)
    · exact .leaf rfl rfl written (by simp)

theorem hintAtom_sited (sited : nested.Sited text start) :
    Gives start (hintAtom nested) fun hint _ => hint.outline.Sited text := by
  unfold hintAtom hintAtom.group
  refine .orElse (.pass fun _ => .pass fun _ => ?_) (hintName_sited sited.inText)
  exact sited.hint.next fun inner innerSited =>
    .pass fun _ => .pass fun _ => .give fun _ _ => innerSited

theorem nullableHint_sited (sited : nested.Sited text start) :
    Gives start (nullableHint nested) fun hint _ => hint.outline.Sited text := by
  unfold nullableHint
  refine .placed sited.inText fun span placed => .pass fun _ => .pass fun _ => ?_
  refine (hintAtom_sited sited).next fun inner innerSited => .give fun _ _ => ?_
  exact .branch rfl placed (by simpa using innerSited)

theorem joinedHint_sited (sited : nested.Sited text start) :
    Gives start (joinedHint nested) fun hint _ => hint.outline.Sited text := by
  have atom := hintAtom_sited sited
  unfold joinedHint
  refine .placed sited.inText fun span placed => atom.next fun first firstSited => ?_
  refine (Gives.each (.pass fun _ => .pass fun _ => .pass fun _ => atom) _).next ?_
  intro alternatives alternativesSited
  split
  · refine .give fun _ _ => .branch rfl placed ?_
    simpa [firstSited] using alternativesSited
  · refine (Gives.each (.pass fun _ => .pass fun _ => .pass fun _ => .pass fun _ => atom) _).next ?_
    intro parts partsSited
    refine .give fun _ _ => ?_
    split
    · exact firstSited
    · exact .branch rfl placed (by simpa [firstSited] using partsSited)

theorem hint_sited (sited : nested.Sited text start) :
    Gives start (hint nested) fun hint _ => hint.outline.Sited text :=
  (nullableHint_sited sited).orElse (joinedHint_sited sited)

theorem returnHint_sited (sited : nested.Sited text start) :
    Gives start (returnHint nested) fun hint _ => hint.outline.Sited text := by
  exact .pass fun _ => .pass fun _ => (hint_sited sited).followed

theorem leadingHint_sited (sited : nested.Sited text start) :
    Gives start (leadingHint nested) fun hint _ => hint.outline.Sited text :=
  (hint_sited sited).followed

/-! Members -/

theorem statementList_sited (sited : nested.Sited text start) :
    Gives start (statementList nested) fun statements _ =>
      ∀ statement ∈ statements, statement.outline.Sited text := by
  unfold statementList
  refine (sited.statement.followed.each _).next fun groups groupsSited => ?_
  exact .give fun _ _ => List.forall_mem_flatten.mpr groupsSited

theorem block_sited (sited : nested.Sited text start) :
    Gives start (block nested) fun block _ => (outlineBlock block).Sited text := by
  unfold block
  refine .placed sited.inText fun span placed => .pass fun _ => .pass fun _ => ?_
  refine (statementList_sited sited).next fun statements statementsSited => .pass fun _ => ?_
  exact .give fun _ _ => .branch rfl placed (by simpa using statementsSited)

theorem initialValue_sited (sited : nested.Sited text start) :
    Gives start (initialValue nested) fun initial _ =>
      ∀ value ∈ initial, value.outline.Sited text :=
  .option (.pass fun _ => .pass fun _ => .pass fun _ => sited.expression)

theorem parameter_sited (sited : nested.Sited text start) :
    Gives start (parameter nested) fun parameter _ => (outlineParameter parameter).Sited text := by
  unfold parameter
  refine .placed sited.inText fun span placed => .pass fun _ => .pass fun modifiers => ?_
  refine (leadingHint_sited sited).option.next fun hint hintSited => ?_
  refine .pass fun byRef => .pass fun variadic => .pass fun name => ?_
  refine (initialValue_sited sited).next fun initial initialSited => .give fun _ _ => ?_
  exact .branch rfl placed (by simpa using ⟨hintSited, initialSited⟩)

theorem parameterList_sited (sited : nested.Sited text start) :
    Gives start (parameterList nested) fun parameters _ =>
      ∀ parameter ∈ parameters, (outlineParameter parameter).Sited text := by
  unfold parameterList
  refine .pass fun _ => .pass fun _ => ?_
  refine ((parameter_sited sited).trailingCommaList _).next fun parameters parametersSited => ?_
  exact .pass fun _ => .pass fun _ => .give fun _ _ => parametersSited

theorem traitUse_sited (sited : nested.Sited text start) :
    Gives start (traitUse nested) fun member _ => (outlineMember member).Sited text := by
  unfold traitUse
  refine .placed sited.inText fun span placed => .pass fun _ => .pass fun _ => ?_
  refine .pass fun names => .pass fun _ => .pass fun _ => .give fun _ _ => ?_
  exact .branch rfl placed (by simp)

theorem enumCase_sited (sited : nested.Sited text start) :
    Gives start (enumCase nested) fun member _ => (outlineMember member).Sited text := by
  unfold enumCase
  refine .placed sited.inText fun span placed => .pass fun _ => .pass fun _ => ?_
  refine (memberName_sited sited.inText).next fun name nameSited => ?_
  refine (initialValue_sited sited).next fun value valueSited => ?_
  refine .pass fun _ => .pass fun _ => .give fun _ _ => ?_
  exact .branch rfl placed (by simpa using ⟨nameSited, valueSited⟩)

theorem constantEntry_sited (sited : nested.Sited text start) :
    Gives start (constantEntry nested) fun entry _ =>
      Placed text entry.span ∧ entry.name.outline.Sited text ∧ entry.value.outline.Sited text := by
  unfold constantEntry
  refine .placed sited.inText fun span placed => ?_
  refine (memberName_sited sited.inText).next fun name nameSited => ?_
  refine .pass fun _ => .pass fun _ => .pass fun _ => ?_
  exact sited.expression.next fun value valueSited => .give fun _ _ =>
    ⟨placed, nameSited, valueSited⟩

theorem constantEntries_sited (sited : nested.Sited text start) :
    Gives start (commaList nested.limit (constantEntry nested)) fun entries _ =>
      ∀ entry ∈ entries, (outlineConstant entry).Sited text := by
  refine Gives.commaList ((constantEntry_sited sited).weaken ?_) _
  rintro ⟨span, name, value⟩ _ _ ⟨placed, nameSited, valueSited⟩
  exact .branch rfl placed (by simpa using ⟨nameSited, valueSited⟩)

theorem classConstant_sited (sited : nested.Sited text start) :
    Gives start (classConstant nested) fun member _ => (outlineMember member).Sited text := by
  unfold classConstant
  refine .placed sited.inText fun span placed => .pass fun modifiers => ?_
  refine .pass fun _ => .pass fun _ => ?_
  refine (leadingHint_sited sited).followed.option.next fun hint hintSited => ?_
  refine (constantEntries_sited sited).next fun entries entriesSited => ?_
  refine .pass fun _ => .pass fun _ => .give fun _ _ => ?_
  exact .branch rfl placed (by simpa using ⟨hintSited, entriesSited⟩)

/-- A block, or the end of a statement in its place. -/
theorem bodyOrEnd_sited (sited : nested.Sited text start) :
    Gives start ((some <$> block nested) <|> (do terminator; return none))
      fun body _ => ∀ found ∈ body, (outlineBlock found).Sited text := by
  refine .orElse (.map ((block_sited sited).weaken ?_)) (.pass fun _ => .give (by simp))
  simp

theorem method_sited (sited : nested.Sited text start) :
    Gives start (method nested) fun member _ => (outlineMember member).Sited text := by
  unfold method
  refine .placed sited.inText fun span placed => .pass fun modifiers => ?_
  refine .pass fun _ => .pass fun _ => .pass fun byRef => ?_
  refine (memberName_sited sited.inText).next fun name nameSited => .pass fun _ => ?_
  refine (parameterList_sited sited).next fun parameters parametersSited => .pass fun _ => ?_
  refine (returnHint_sited sited).option.next fun hint hintSited => ?_
  refine (bodyOrEnd_sited sited).next fun body bodySited => .give fun _ _ => ?_
  exact .branch rfl placed (by simpa using ⟨nameSited, parametersSited, hintSited, bodySited⟩)

theorem variableEntries_sited (sited : nested.Sited text start) (label : String)
    (branch : isBranch label = true) :
    Gives start (commaList nested.limit (variableEntry nested)) fun entries _ =>
      ∀ entry ∈ entries, (outlineVariable label entry).Sited text := by
  refine Gives.commaList ?_ _
  unfold variableEntry
  refine .placed sited.inText fun span placed => .pass fun name => ?_
  refine (initialValue_sited sited).next fun initial initialSited => .give fun _ _ => ?_
  exact .branch branch placed (by simpa using initialSited)

theorem property_sited (sited : nested.Sited text start) :
    Gives start (property nested) fun member _ => (outlineMember member).Sited text := by
  unfold property
  refine .placed sited.inText fun span placed => .pass fun modifiers => ?_
  split
  · have never : Gives start failure fun (_ : PUnit) _ => False := .fail
    exact never.next nofun
  · refine (leadingHint_sited sited).option.next fun hint hintSited => ?_
    refine (variableEntries_sited sited "PropertyEntry" rfl).next fun entries entriesSited => ?_
    refine .pass fun _ => .pass fun _ => .give fun _ _ => ?_
    exact .branch rfl placed (by simpa using ⟨hintSited, entriesSited⟩)

theorem member_sited (sited : nested.Sited text start) :
    Gives start (member nested) fun member _ => (outlineMember member).Sited text :=
  .pass fun _ => (traitUse_sited sited).orElse <| (enumCase_sited sited).orElse <|
    (classConstant_sited sited).orElse <| (method_sited sited).orElse (property_sited sited)

theorem classBody_sited (sited : nested.Sited text start) :
    Gives start (classBody nested) fun members _ =>
      ∀ member ∈ members, (outlineMember member).Sited text := by
  unfold classBody
  exact .pass fun _ => .pass fun _ => ((member_sited sited).followed.each _).followed

/-! Arguments and accesses -/

theorem placeholder_sited (inText : start.point.In text) :
    Gives start placeholder fun argument _ => (outlineArgument argument).Sited text := by
  unfold placeholder
  refine .placed inText fun span placed => .pass fun _ => .pass fun _ => .pass fun _ => ?_
  refine .give fun _ _ => .branch rfl placed ?_
  have mark : (Expr.placeholder span).outline.Sited text := .branch rfl placed (by simp)
  simpa using mark

theorem spreadArgument_sited (sited : nested.Sited text start) :
    Gives start (spreadArgument nested) fun argument _ =>
      (outlineArgument argument).Sited text := by
  unfold spreadArgument
  refine .placed sited.inText fun span placed => .pass fun _ => .pass fun _ => ?_
  refine sited.expression.next fun value valueSited => .give fun _ _ => ?_
  exact .branch rfl placed (by simpa using valueSited)

theorem namedArgument_sited (sited : nested.Sited text start) :
    Gives start (namedArgument nested) fun argument _ =>
      (outlineArgument argument).Sited text := by
  unfold namedArgument
  refine (memberName_sited sited.inText).next fun name nameSited => ?_
  refine .pass fun _ => .pass fun _ => .pass fun _ => ?_
  refine sited.expression.next fun value valueSited => .give fun _ _ => ?_
  exact .branch rfl (sited_node.mp nameSited).1.1 (by simpa using valueSited)

theorem plainArgument_sited (sited : nested.Sited text start) :
    Gives start (plainArgument nested) fun argument _ =>
      (outlineArgument argument).Sited text := by
  refine sited.expression.next fun value valueSited => .give fun _ _ => ?_
  exact .branch rfl (Expr.placed_span valueSited) (by simpa using valueSited)

theorem arguments_sited (sited : nested.Sited text start) :
    Gives start (arguments nested) fun arguments _ =>
      ∀ argument ∈ arguments, (outlineArgument argument).Sited text := by
  have item : Gives start (argument nested) fun argument _ =>
      (outlineArgument argument).Sited text :=
    (placeholder_sited sited.inText).orElse <| (spreadArgument_sited sited).orElse <|
      (namedArgument_sited sited).orElse (plainArgument_sited sited)
  unfold arguments
  refine .pass fun _ => .pass fun _ => (item.trailingCommaList _).next fun found foundSited => ?_
  exact .pass fun _ => .pass fun _ => .give fun _ _ => foundSited

theorem braced_sited (sited : nested.Sited text start) :
    Gives start (braced nested) fun found _ => found.1.outline.Sited text := by
  unfold braced
  refine .pass fun _ => .pass fun _ => .pass fun _ => ?_
  refine sited.expression.next fun inner innerSited => .pass fun _ => .pass fun _ => ?_
  exact .pass fun _ => .give fun _ _ => innerSited

theorem staticSelector_sited :
    Gives start (staticSelector nested) fun step _ => step.Sited text := by
  unfold staticSelector
  refine .orElse (.map fun _ _ _ _ _ => trivial) (.orElse (.map fun _ _ _ _ _ => trivial) ?_)
  refine .pass fun found => .give fun _ _ => ?_
  split <;> trivial

theorem elementAccess_sited (sited : nested.Sited text start) :
    Gives start (elementAccess nested) fun step _ => step.Sited text := by
  unfold elementAccess
  refine .pass fun _ => .pass fun _ => sited.expression.option.next fun index indexSited => ?_
  exact .pass fun _ => .pass fun _ => .give fun _ _ => indexSited

theorem access_sited (sited : nested.Sited text start) :
    Gives start (access nested) fun step _ => step.Sited text := by
  unfold access memberAccess nullsafeAccess staticAccess
  refine .pass fun _ => .orElse ?_ <| .orElse ?_ <| .orElse ?_ <|
    (elementAccess_sited sited).orElse <| (Gives.map (arguments_sited sited)).orElse <|
    .orElse ?_ ?_
  · exact .pass fun _ => .pass fun _ => .pass fun _ => .give fun _ _ => trivial
  · exact .pass fun _ => .pass fun _ => .pass fun _ => .give fun _ _ => trivial
  · exact .pass fun _ => .pass fun _ => staticSelector_sited
  · exact .pass fun _ => .give fun _ _ => trivial
  · exact .pass fun _ => .give fun _ _ => trivial

/-! Primary expressions -/

theorem parenthesized_sited (sited : nested.Sited text start) :
    Gives start (parenthesized nested) fun value _ => value.outline.Sited text := by
  unfold parenthesized
  refine .placed sited.inText fun span placed => .pass fun _ => .pass fun _ => ?_
  refine sited.expression.next fun inner innerSited => .pass fun _ => .pass fun _ => ?_
  exact .give fun _ _ => .branch rfl placed (by simpa using innerSited)

theorem closureUses_sited (sited : nested.Sited text start) :
    Gives start (closureUses nested) fun uses _ => ∀ use ∈ uses, use.outline.Sited text := by
  have item : Gives start closureUse fun use _ => use.outline.Sited text := by
    unfold closureUse
    refine .placed sited.inText fun span placed => .pass fun byRef => .pass fun name => ?_
    exact .give fun _ _ => .branch rfl placed (by simp)
  unfold closureUses
  refine .pass fun _ => .pass fun _ => .pass fun _ => .pass fun _ => ?_
  refine (item.commaList _).next fun uses usesSited => .pass fun _ => .pass fun _ => ?_
  exact .pass fun _ => .pass fun _ => .pass fun _ => .give fun _ _ => usesSited

theorem closure_sited (sited : nested.Sited text start) :
    Gives start (closure nested) fun value _ => value.outline.Sited text := by
  unfold closure
  refine .placed sited.inText fun span placed => .pass fun static => ?_
  refine .pass fun _ => .pass fun _ => .pass fun byRef => ?_
  refine (parameterList_sited sited).next fun parameters parametersSited => .pass fun _ => ?_
  refine (closureUses_sited sited).option.next fun uses usesSited => ?_
  refine (returnHint_sited sited).option.next fun hint hintSited => ?_
  refine (block_sited sited).next fun body bodySited => .give fun _ _ => .branch rfl placed ?_
  simpa using ⟨parametersSited, forall_mem_getD_nil usesSited, hintSited, bodySited⟩

theorem arrowFunction_sited (sited : nested.Sited text start) :
    Gives start (arrowFunction nested) fun value _ => value.outline.Sited text := by
  unfold arrowFunction
  refine .placed sited.inText fun span placed => .pass fun static => ?_
  refine .pass fun _ => .pass fun _ => .pass fun byRef => ?_
  refine (parameterList_sited sited).next fun parameters parametersSited => .pass fun _ => ?_
  refine (returnHint_sited sited).option.next fun hint hintSited => .pass fun _ => .pass fun _ => ?_
  refine sited.ternary.next fun result ⟨resultSited, _⟩ => .give fun _ _ => .branch rfl placed ?_
  simpa using ⟨parametersSited, hintSited, resultSited⟩

theorem anonymousClass_sited (sited : nested.Sited text start) :
    Gives start (anonymousClass nested) fun found _ =>
      found.1.outline.Sited text ∧
        ∀ argument ∈ found.2, (outlineArgument argument).Sited text := by
  unfold anonymousClass
  refine .placed sited.inText fun span placed => .pass fun _ => .pass fun _ => .pass fun _ => ?_
  refine (arguments_sited sited).option.next fun arguments argumentsSited => .pass fun _ => ?_
  refine .pass fun parent => .pass fun interfaces => ?_
  refine (classBody_sited sited).next fun members membersSited => .give fun _ _ => ?_
  exact ⟨.branch rfl placed (by simpa using membersSited), forall_mem_getD_nil argumentsSited⟩

theorem nameOrLiteral_sited (inText : start.point.In text) :
    Gives start nameOrLiteral fun value _ => value.outline.Sited text := by
  unfold nameOrLiteral
  refine .written inText (copies_lexeme _) fun span stored written => .give fun _ _ => ?_
  split
  · exact .leaf rfl rfl written (by simp)
  · split
    · exact .leaf rfl rfl written (by simp)
    · exact .leaf rfl rfl written (by simp)

theorem plainVariable_sited (inText : start.point.In text) :
    Gives start plainVariable fun value _ => value.outline.Sited text := by
  unfold plainVariable
  refine .written inText (copies_lexeme _) fun span stored written => .give fun _ _ => ?_
  exact .leaf rfl rfl written (by simp)

theorem classStep_sited (text : List Char) :
    Gives start classStep fun step _ => step.Sited text := by
  unfold classStep
  refine .pass fun _ => .orElse (.pass fun _ => .pass fun _ => .pass fun _ => ?_)
    (.pass fun _ => .pass fun _ => .orElse ?_ ?_)
  · exact .give fun _ _ => trivial
  · exact .map fun _ _ _ _ _ => trivial
  · exact .map fun _ _ _ _ _ => trivial

theorem dynamicClass_sited (sited : nested.Sited text start) :
    Gives start (dynamicClass nested) fun value _ => value.outline.Sited text := by
  refine (plainVariable_sited sited.inText).next fun base baseSited => ?_
  refine ((classStep_sited text).each _).next fun steps stepsSited => .give fun _ _ => ?_
  exact Expr.sited_accessAll baseSited stepsSited

theorem newExpression_sited (sited : nested.Sited text start) :
    Gives start (newExpression nested) fun value _ => value.outline.Sited text := by
  unfold newExpression
  refine .placed sited.inText fun span placed => .pass fun _ => .pass fun _ => ?_
  refine .orElse ((anonymousClass_sited sited).next fun found foundSited => ?_) ?_
  · refine .pass fun _ => .give fun _ _ => .branch rfl placed ?_
    simpa using foundSited
  · have target := (parenthesized_sited sited).orElse <| (dynamicClass_sited sited).orElse
      (nameOrLiteral_sited sited.inText)
    have trailing : Gives start (perhaps do skip; arguments nested) _ :=
      .option (.pass fun _ => arguments_sited sited)
    refine target.next fun target targetSited => trailing.next fun found foundSited => ?_
    refine .give fun _ _ => .branch rfl placed ?_
    simpa using ⟨targetSited, forall_mem_getD_nil foundSited⟩

/-! Matches, arrays and literals -/

theorem matchArm_sited (sited : nested.Sited text start) :
    Gives start (matchArm nested) fun arm _ => (outlineArm arm).Sited text := by
  have conditions : Gives start
      ((do keyword "default"; return []) <|> commaList nested.limit nested.expression)
      fun values _ => ∀ value ∈ values, value.outline.Sited text :=
    .orElse (.pass fun _ => .give (by simp)) (sited.expression.commaList _)
  unfold matchArm
  refine .placed sited.inText fun span placed => ?_
  refine conditions.next fun conditions conditionsSited => ?_
  refine .pass fun _ => .pass fun _ => .pass fun _ => ?_
  refine sited.expression.next fun result resultSited => .give fun _ _ => .branch rfl placed ?_
  by_cases empty : conditions.isEmpty
  · simpa [empty] using resultSited
  · simpa [empty] using ⟨conditionsSited, resultSited⟩

theorem matchExpression_sited (sited : nested.Sited text start) :
    Gives start (matchExpression nested) fun value _ => value.outline.Sited text := by
  unfold matchExpression
  refine .placed sited.inText fun span placed => .pass fun _ => .pass fun _ => .pass fun _ => ?_
  refine .pass fun _ => sited.expression.next fun subject subjectSited => ?_
  refine .pass fun _ => .pass fun _ => .pass fun _ => .pass fun _ => .pass fun _ => ?_
  refine ((matchArm_sited sited).trailingCommaList _).next fun arms armsSited => ?_
  refine .pass fun _ => .pass fun _ => .give fun _ _ => .branch rfl placed ?_
  simpa using ⟨subjectSited, armsSited⟩

theorem spreadItem_sited (sited : nested.Sited text start) :
    Gives start (spreadItem nested) fun item _ => (outlineItem item).Sited text := by
  unfold spreadItem
  refine .placed sited.inText fun span placed => .pass fun _ => .pass fun _ => ?_
  refine sited.expression.next fun value valueSited => .give fun _ _ => ?_
  exact .branch rfl placed (by simpa using valueSited)

theorem plainItem_sited (sited : nested.Sited text start) :
    Gives start (plainItem nested) fun item _ => (outlineItem item).Sited text := by
  unfold plainItem
  refine .placed sited.inText fun span placed => sited.expression.next fun first firstSited => ?_
  refine .orElse (.pass fun _ => .pass fun _ => .pass fun _ => .pass fun byRef => ?_) ?_
  · refine sited.expression.next fun value valueSited => .give fun _ _ => ?_
    exact .branch rfl placed (by simpa using ⟨firstSited, valueSited⟩)
  · exact .give fun _ _ => .branch rfl placed (by simpa using firstSited)

theorem referenceItem_sited (sited : nested.Sited text start) :
    Gives start (referenceItem nested) fun item _ => (outlineItem item).Sited text := by
  unfold referenceItem
  refine .placed sited.inText fun span placed => .pass fun _ => .pass fun _ => ?_
  refine sited.expression.next fun value valueSited => .give fun _ _ => ?_
  exact .branch rfl placed (by simpa using valueSited)

theorem arrayItemsFrom_sited (sited : nested.Sited text start) (limit : Nat) :
    Gives start (arrayItemsFrom nested limit) fun items _ =>
      ∀ item ∈ items, (outlineItem item).Sited text := by
  have item : Gives start (arrayItem nested) fun item _ => (outlineItem item).Sited text :=
    (spreadItem_sited sited).orElse <| (plainItem_sited sited).orElse (referenceItem_sited sited)
  induction limit with
  | zero => exact .give (by simp)
  | succ limit ih =>
      unfold arrayItemsFrom
      refine item.option.next fun found foundSited => .pass fun more => ?_
      have joined : ∀ rest, (∀ item ∈ rest, (outlineItem item).Sited text) →
          ∀ item ∈ found.toList ++ rest, (outlineItem item).Sited text := by
        intro rest restSited item member
        rcases List.mem_append.mp member with member | member
        · exact foundSited item (Option.mem_toList.mp member)
        · exact restSited item member
      have ended : Gives start (pure []) fun rest _ =>
          ∀ item ∈ rest, (outlineItem item).Sited text := .give (by simp)
      split
      · exact ih.next fun rest restSited => .give fun _ _ => joined rest restSited
      · exact ended.next fun rest restSited => .give fun _ _ => joined rest restSited

theorem shortArray_sited (sited : nested.Sited text start) :
    Gives start (shortArray nested) fun value _ => value.outline.Sited text := by
  unfold shortArray
  refine .placed sited.inText fun span placed => .pass fun _ => .pass fun _ => ?_
  refine (arrayItemsFrom_sited sited _).next fun items itemsSited => ?_
  refine .pass fun _ => .pass fun _ => .give fun _ _ => ?_
  exact .branch rfl placed (by simpa using itemsSited)

theorem wordArray_sited (sited : nested.Sited text start) (word : String) (form : ArrayForm) :
    Gives start (wordArray word form nested) fun value _ => value.outline.Sited text := by
  unfold wordArray
  refine .placed sited.inText fun span placed => .pass fun _ => .pass fun _ => .pass fun _ => ?_
  refine .pass fun _ => (arrayItemsFrom_sited sited _).next fun items itemsSited => ?_
  refine .pass fun _ => .pass fun _ => .give fun _ _ => ?_
  exact .branch rfl placed (by simpa using itemsSited)

theorem stringLiteral_sited (inText : start.point.In text) :
    Gives start stringLiteral fun value _ => value.outline.Sited text := by
  have copies : (lexeme Lexeme.heredoc <|> lexeme Lexeme.string).Copies := by
    intro cursor value later read
    rcases run_orElse read with read | read
    · exact copies_lexeme _ read
    · exact copies_lexeme _ read
  unfold stringLiteral
  refine .written inText copies fun span stored written => .give fun _ _ => ?_
  exact .leaf rfl rfl written (by simp)

theorem numberLiteral_sited (inText : start.point.In text) :
    Gives start numberLiteral fun value _ => value.outline.Sited text := by
  unfold numberLiteral
  refine .written inText (copies_lexeme _) fun span stored written => .give fun _ _ => ?_
  exact .leaf rfl rfl written (by simp)

theorem variableVariable_sited (sited : nested.Sited text start) :
    Gives start (variableVariable nested) fun value _ => value.outline.Sited text := by
  have inner : Gives start (plainVariable <|> Prod.fst <$> braced nested)
      fun value _ => value.outline.Sited text :=
    (plainVariable_sited sited.inText).orElse (.map (braced_sited sited))
  unfold variableVariable
  refine .placed sited.inText fun span placed => .pass fun _ => ?_
  refine inner.next fun inner innerSited => .give fun _ _ => ?_
  exact .branch rfl placed (by simpa using innerSited)

theorem primary_sited (sited : nested.Sited text start) :
    Gives start (primary nested) fun value _ => value.outline.Sited text :=
  (parenthesized_sited sited).orElse <| (closure_sited sited).orElse <|
    (arrowFunction_sited sited).orElse <| (newExpression_sited sited).orElse <|
    (matchExpression_sited sited).orElse <| (shortArray_sited sited).orElse <|
    (wordArray_sited sited _ _).orElse <| (wordArray_sited sited _ _).orElse <|
    (stringLiteral_sited sited.inText).orElse <| (numberLiteral_sited sited.inText).orElse <|
    (plainVariable_sited sited.inText).orElse <| (variableVariable_sited sited).orElse
    (nameOrLiteral_sited sited.inText)

theorem chain_sited (sited : nested.Sited text start) :
    Gives start (chain nested) fun value _ => value.outline.Sited text := by
  refine (primary_sited sited).next fun base baseSited => ?_
  refine ((access_sited sited).each _).next fun steps stepsSited => .give fun _ _ => ?_
  exact Expr.sited_accessAll baseSited stepsSited

/-! Operators -/

theorem leadingOperation_sited (sited : nested.Sited text start) :
    Gives start (leadingOperation nested) fun value _ => value.outline.Sited text := by
  unfold leadingOperation
  refine .placed sited.inText fun span placed => .pass fun operator => .pass fun _ => ?_
  refine sited.unary.next fun operand ⟨operandSited, whole⟩ => .give fun _ _ => ?_
  exact .operation rfl rfl placed ⟨operator, operand, false, rfl, fun _ _ => whole⟩
    (by simpa using operandSited)

theorem wordOperation_sited (sited : nested.Sited text start) {rule : Reader UnaryOperator}
    (words : Gives start rule fun operator _ => operator.isCommand = true) :
    Gives start (wordOperation rule nested) fun value _ => value.outline.Sited text := by
  unfold wordOperation
  refine .placed sited.inText fun span placed => words.next fun operator word => .pass fun _ => ?_
  refine sited.ternary.next fun operand ⟨operandSited, _⟩ => .give fun _ _ => ?_
  refine .operation rfl rfl placed ⟨operator, operand, false, rfl, fun _ other => ?_⟩
    (by simpa using operandSited)
  rw [word] at other
  cases other

theorem ternaryTail_sited (sited : nested.Sited text start) :
    Gives start (ternaryTail nested) fun found _ =>
      (∀ whenTrue ∈ found.1, whenTrue.outline.Sited text) ∧ found.2.outline.Sited text := by
  unfold ternaryTail
  refine .pass fun _ => .orElse (.pass fun _ => .pass fun _ => ?_)
    (.pass fun _ => .pass fun _ => ?_)
  · exact sited.binary.next fun whenFalse found => .give fun _ _ => ⟨by simp, found⟩
  · refine sited.ternary.next fun whenTrue ⟨trueSited, _⟩ => ?_
    refine .pass fun _ => .pass fun _ => .pass fun _ => ?_
    refine sited.binary.next fun whenFalse falseSited => .give fun _ _ => ⟨?_, falseSited⟩
    simpa using trueSited

theorem ternaryFrom_sited (sited : nested.Sited text start) {condition : Expr}
    (conditionSited : condition.outline.Sited text) :
    Gives start (ternaryFrom nested condition) fun value _ => value.outline.Sited text := by
  refine ((ternaryTail_sited sited).each _).next fun tails tailsSited => .give fun _ _ => ?_
  induction tails generalizing condition with
  | nil => exact conditionSited
  | cons tail rest ih =>
      obtain ⟨⟨trueSited, falseSited⟩, others⟩ := List.forall_mem_cons.mp tailsSited
      refine ih ?_ others
      refine .branch rfl (Expr.placed_span conditionSited) ?_
      simpa using ⟨conditionSited, trueSited, falseSited⟩

theorem yieldFrom_sited (sited : nested.Sited text start) {span : Span}
    (placed : Placed text span) :
    Gives start (yieldFrom nested span) fun value _ => value.outline.Sited text := by
  unfold yieldFrom
  refine .pass fun _ => .pass fun _ => .pass fun _ => ?_
  refine sited.ternary.next fun value ⟨valueSited, _⟩ => .give fun _ _ => ?_
  exact .branch rfl placed (by simpa using valueSited)

theorem yieldValue_sited (sited : nested.Sited text start) {span : Span}
    (placed : Placed text span) :
    Gives start (yieldValue nested span) fun value _ => value.outline.Sited text := by
  unfold yieldValue
  refine .pass fun _ => sited.binary.next fun first firstSited => .orElse ?_ ?_
  · have value : Gives start (perhaps do skip; nested.ternary) _ :=
      .option (.pass fun _ => sited.ternary.weaken fun _ _ _ found => found.1)
    refine .pass fun _ => .pass fun _ => value.next fun value valueSited => .give fun _ _ => ?_
    exact .branch rfl placed (by simpa using ⟨firstSited, valueSited⟩)
  · refine (ternaryFrom_sited sited firstSited).next fun value valueSited => .give fun _ _ => ?_
    exact .branch rfl placed (by simpa using valueSited)

theorem yieldExpression_sited (sited : nested.Sited text start) :
    Gives start (yieldExpression nested) fun value _ => value.outline.Sited text := by
  unfold yieldExpression
  refine .placed sited.inText fun span placed => .pass fun _ => ?_
  refine (yieldFrom_sited sited placed).orElse <| (yieldValue_sited sited placed).orElse ?_
  exact .give fun _ _ => .branch rfl placed (by simp)

theorem chainOrAssignment_sited (sited : nested.Sited text start) :
    Gives start (chainOrAssignment nested) fun value _ => value.outline.Sited text := by
  unfold chainOrAssignment
  refine (chain_sited sited).next fun target targetSited => ?_
  refine .orElse ?_ (.give fun _ _ => targetSited)
  refine .pass fun _ => .pass fun operator => .pass fun _ => .pass fun byRef => ?_
  refine sited.ternary.next fun value ⟨valueSited, _⟩ => .give fun _ _ => ?_
  exact .branch rfl (Expr.placed_span targetSited) (by simpa using ⟨targetSited, valueSited⟩)

theorem unary_sited (sited : nested.Sited text start) :
    Gives start (unary nested) fun value _ => value.outline.Sited text := by
  have print : Gives start (do keyword "print"; return UnaryOperator.print)
      fun operator _ => operator.isCommand = true := .pass fun _ => .give fun _ _ => rfl
  have throw : Gives start (do keyword "throw"; return UnaryOperator.throw)
      fun operator _ => operator.isCommand = true := .pass fun _ => .give fun _ _ => rfl
  have keyword : Gives start (keywordExpression nested) fun value _ => value.outline.Sited text :=
    (wordOperation_sited sited print).orElse <| (yieldExpression_sited sited).orElse <|
      (wordOperation_sited sited throw).orElse (wordOperation_sited sited loadOperator_isCommand)
  exact (leadingOperation_sited sited).orElse <| keyword.orElse (chainOrAssignment_sited sited)

theorem binary_sited (sited : nested.Sited text start) :
    Gives start (binary nested) fun value _ => value.outline.Sited text := by
  refine operatorChain_gives 21 (fun _ => True) ?_ ?_ ?_ ?_ _
  · intro cursor value later reached read
    exact ⟨unary_whole reached read .power, unary_sited sited reached read⟩
  · exact fun _ operator _ _ _ => ⟨operator.precedence_le, trivial⟩
  · exact sited.unary.weaken fun value _ _ found => ⟨found.2 .power, found.1⟩
  · exact fun _ _ _ _ => Expr.sited_join

theorem ternary_sited (sited : nested.Sited text start) :
    Gives start (ternary nested) fun value _ => value.outline.Sited text :=
  (binary_sited sited).next fun _ conditionSited => ternaryFrom_sited sited conditionSited

theorem expression_sited (sited : nested.Sited text start) :
    Gives start (expression nested) fun value _ => value.outline.Sited text := by
  have operand := sited.unary.weaken fun _ _ _ found => found.2
  refine operatorChain_gives 3 (fun _ => True) ?_ ?_ ?_ ?_ _
  · intro cursor value later reached read
    exact ⟨ternary_level operand reached read, ternary_sited sited reached read⟩
  · exact lowOperator_precedence.weaken fun _ _ _ low => ⟨low, trivial⟩
  · exact sited.ternary.weaken fun value _ _ found => ⟨found.2, found.1⟩
  · exact fun _ _ _ _ => Expr.sited_join

end Reader

end PhpAudit
