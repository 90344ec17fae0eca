import PhpAudit.Proofs.CommentedPrograms
import PhpAudit.Proofs.FollowedMembers

/-!
The readers of expressions follow their rules of the grammar. Where a reader takes the common
beginning of two rules once, or tells them apart by what it has read, the form it follows answers as
the rules do.
-/

namespace PhpAudit

namespace Reader

open Form

variable {limit : Nat} {own : Bool}

/-! Arguments -/

theorem follows_placeholder : Follows limit own placeholder (.symbol .callablePlaceholder) :=
  .symbol <| .here fun _ => .mark_then <| .skip_then <| .last (.ahead .mark) fun _ => .give

theorem follows_spreadArgument :
    Follows limit own (spreadArgument (.held limit)) (.symbol .spreadArgument) :=
  .symbol <| .here fun _ => .mark_then <| .skip_then <| .last .heldExpression fun _ => .give

theorem follows_namedArgument :
    Follows limit own (namedArgument (.held limit)) (.symbol .namedArgument) :=
  .symbol <| .bind follows_memberName fun _ => .skip_then <| .token_then rfl <| .skip_then <|
    .last .heldExpression fun _ => .give

theorem follows_argument : Follows limit true (argument (.held limit)) (.symbol .argument) :=
  .symbol <| .orElse follows_placeholder <| .orElse follows_spreadArgument <|
    .orElse follows_namedArgument <| .last .heldExpression fun _ => .give

theorem follows_arguments : Follows limit own (arguments (.held limit)) (.symbol .arguments) :=
  .symbol <| .mark_then <| .skip_then <| .bind (.trailingCommaList follows_argument) fun _ =>
    .skip_then <| .last .mark fun _ => .give

/-! Accesses -/

theorem follows_braced : Follows limit own (braced (.held limit)) (.symbol .braceExpression) :=
  .symbol <| .cursor fun _ => .mark_then <| .skip_then <| .bind .heldExpression fun _ =>
    .skip_then <| .last .mark fun _ => .cursor fun _ => .give

theorem follows_selector : Follows limit own (selector (.held limit)) (.symbol .memberSelector) :=
  .symbol <| .orElse (.lexeme rfl) <| .orElse follows_dollarName (.map follows_braced)

theorem follows_staticSelector :
    Follows limit own (staticSelector (.held limit)) (.symbol .staticSelector) :=
  .symbol <| .orElse (.map follows_dollarName) <| .orElse (.map (.lexeme rfl)) <|
    .last follows_braced fun _ => .give

theorem follows_memberAccess :
    Follows limit own (memberAccess (.held limit)) (.symbol .memberAccess) :=
  .symbol <| .mark_then <| .skip_then <| .last follows_selector fun _ => .give

theorem follows_nullsafeAccess :
    Follows limit own (nullsafeAccess (.held limit)) (.symbol .nullsafeAccess) :=
  .symbol <| .mark_then <| .skip_then <| .last follows_selector fun _ => .give

theorem follows_staticAccess :
    Follows limit own (staticAccess (.held limit)) (.symbol .staticAccess) :=
  .symbol <| .mark_then <| .skip_then follows_staticSelector

theorem follows_elementAccess :
    Follows limit own (elementAccess (.held limit)) (.symbol .indexAccess) :=
  .symbol <| .mark_then <| .skip_then <| .bind (.perhaps .heldExpression) fun _ =>
    .skip_then <| .last .mark fun _ => .give

theorem follows_access : Follows limit own (access (.held limit)) (.symbol .postfixOperator) :=
  .symbol <| .skip_then <| .orElse follows_memberAccess <| .orElse follows_nullsafeAccess <|
    .orElse follows_staticAccess <| .orElse follows_elementAccess <| .orElse (.map follows_arguments) <|
    .symbol <| .orElse (.last .mark fun _ => .give) (.last .mark fun _ => .give)

/-! Primary expressions -/

theorem follows_parenthesized :
    Follows limit own (parenthesized (.held limit)) (.symbol .parenthesized) :=
  .symbol <| .here fun _ => .mark_then <| .skip_then <| .bind .heldExpression fun _ =>
    .skip_then <| .last .mark fun _ => .give

theorem follows_staticMark : Follows limit own staticMark (.optional (.symbol .staticPrefix)) :=
  .given <| .symbol <| .keyword_then .skip

theorem follows_closureUse : Follows limit own closureUse (.symbol .closureUse) :=
  .symbol <| .here fun _ => .bind follows_byRef fun _ => .last follows_dollarName fun _ => .give

theorem follows_closureUses : Follows limit own (closureUses (.held limit)) (.symbol .closureUses) :=
  .symbol <| .keyword_then <| .skip_then <| .mark_then <| .skip_then <|
    .bind (.commaList follows_closureUse) fun _ => .skip_then <| .bind (.discard <| .perhaps .mark) fun _ =>
    .skip_then <| .mark_then <| .last .skip fun _ => .give

theorem follows_closure : Follows limit own (closure (.held limit)) (.symbol .closure) := by
  refine .symbol <| .here fun span => .bind follows_staticMark fun static => .keyword_then <|
    .skip_then <| .bind follows_byRef fun byRef => .bind follows_parameterList fun parameters =>
    .skip_then ?_
  refine .bind (.perhaps follows_closureUses) fun uses => ?_
  exact .bind (.perhaps (.symbol follows_returnHint)) fun returnHint => .last follows_block fun body => .give

theorem follows_arrowFunction :
    Follows limit own (arrowFunction (.held limit)) (.symbol .arrowFunction) := by
  refine .symbol <| .here fun span => .bind follows_staticMark fun static => .keyword_then <|
    .skip_then <| .bind follows_byRef fun byRef => .bind follows_parameterList fun parameters =>
    .skip_then ?_
  exact .bind (.perhaps (.symbol follows_returnHint)) fun returnHint => .mark_then <| .skip_then <|
    .last .heldTernary fun result => .give

theorem follows_anonymousClass :
    Follows limit own (anonymousClass (.held limit)) (.symbol .anonymousClass) := by
  refine .symbol <| .here fun span => .bind follows_attributes fun _ => .keyword_then <| .skip_then <|
    .bind (.perhaps follows_arguments) fun arguments => .skip_then ?_
  exact .bind (.perhaps follows_extendsClause) fun parent => .bind follows_implements fun interfaces =>
    .last follows_classBody fun members => .give

theorem follows_nameOrLiteral : Follows limit own nameOrLiteral (.token .name) :=
  .here fun _ => .last (.lexeme rfl) fun _ => .give

theorem follows_plainVariable : Follows limit own plainVariable (.token .dollarName) :=
  .here fun _ => .last follows_dollarName fun _ => .give

/-- Of the two arrows at most one is there. -/
theorem follows_classStep : Follows limit own classStep (.symbol .dynamicClassStep) := by
  refine .symbol <| .skip_then <| Follows.alike (.orElse ?member ?static) (.factor_end ?apart)
  case member =>
    exact .mark_then <| .skip_then <| .last (.orElse follows_dollarName (.lexeme rfl)) fun _ => .give
  case static => exact .mark_then <| .skip_then <| .orElse (.map follows_dollarName) (.map (.lexeme rfl))
  case apart =>
    intro text length front _
    cases front with
    | token arrow =>
        have begins := Lexeme.mark_eq_some arrow
        exact .token (by rw [begins]; rfl)

theorem follows_dynamicClass :
    Follows limit own (dynamicClass (.held limit)) (.symbol .dynamicClassReference) :=
  .symbol <| .bind follows_plainVariable fun _ => .last (.many rfl follows_classStep) fun _ => .give

/-- Arguments may follow a class of either kind. -/
theorem follows_newExpression :
    Follows limit own (newExpression (.held limit)) (.symbol .newExpression) := by
  have trailing : Follows limit true (perhaps (do skip; arguments (.held limit)))
      (.optional (.symbol .newArguments)) := .perhaps <| .symbol <| .skip_then follows_arguments
  refine .symbol <| .here fun span => .keyword_then <| .skip_then <|
    Follows.alike (.orElse ?anonymous ?named) (.factor_end fun _ fails => absurd fails not_answers_optional)
  case anonymous => exact .bind follows_anonymousClass fun _ => trailing.discard.last fun _ => .give
  case named =>
    refine .bind (.symbol ?target) fun target => trailing.last fun _ => .give
    exact .orElse follows_parenthesized <| .orElse follows_dynamicClass follows_nameOrLiteral

theorem follows_matchArm : Follows limit true (matchArm (.held limit)) (.symbol .matchArm) := by
  refine .symbol <| .here fun span => .bind (.orElse (.last .keyword fun _ => .give) ?conditions)
    fun conditions => .skip_then <| .mark_then <| .skip_then <| .last .heldExpression fun _ => .give
  exact .symbol <| .commaList .heldExpression

theorem follows_matchExpression :
    Follows limit own (matchExpression (.held limit)) (.symbol .matchExpression) :=
  .symbol <| .here fun _ => .token_then rfl <| .skip_then <| .mark_then <| .skip_then <|
    .bind .heldExpression fun _ => .skip_then <| .mark_then <| .skip_then <| .mark_then <|
    .skip_then <| .bind (.trailingCommaList follows_matchArm) fun _ => .skip_then <|
    .last .mark fun _ => .give

/-! Texts that no operand starts with -/

section NoOperand

variable {text : List Char} (no : Lexeme.NoOperand text)

include no

theorem word_refused {word : String} {filled : word ≠ ""} (known : word ∈ openingWords) :
    Answers Symbol.rules (.token (.keyword word filled)) text none :=
  .token (no.word word known)

theorem mark_refused {expected : String} {filled : expected ≠ ""} {sign : Char} {more : List Char}
    (begins : expected.toList = sign :: more) (known : sign ∈ Lexeme.operandSigns) :
    Answers Symbol.rules (.token (.mark expected filled)) text none :=
  .token (no.mark begins known)

theorem call_refused {word : String} {filled : word ≠ ""} (known : word ∈ ["array", "list", "match"]) :
    Answers Symbol.rules (.token (.keywordCall word filled)) text none :=
  .token (no.keywordCall known)

theorem primary_refused : Answers Symbol.rules (.symbol .primary) text none := by
  have dollar : Lexeme.dollarName text = none :=
    Lexeme.followedBy_of_none (no.sign '$' (by decide))
  have static : Answers Symbol.rules (.optional (.symbol .staticPrefix)) text (some 0) :=
    .choiceOther (.symbol (.rowFront (word_refused no (by decide)))) .empty
  refine .symbol <| .choiceOther ?group <| .choiceOther ?closure <| .choiceOther ?arrow <|
    .choiceOther ?new <| .choiceOther ?matching <| .choiceOther ?array <| .choiceOther ?list <|
    .choiceOther (.token no.heredoc) <| .choiceOther (.token no.string) <|
    .choiceOther (.token no.number) <| .choiceOther (.token dollar) <| .choiceOther ?indirect <|
    .token no.name
  case group => exact .symbol (.rowFront (mark_refused no rfl (by decide)))
  case closure => exact .symbol (.rowBack static (.rowFront (word_refused no (by decide))))
  case arrow => exact .symbol (.rowBack static (.rowFront (word_refused no (by decide))))
  case new => exact .symbol (.rowFront (word_refused no (by decide)))
  case matching => exact .symbol (.rowFront (call_refused no (by decide)))
  case array =>
    exact .symbol (.choiceOther (.symbol (.rowFront (mark_refused no rfl (by decide))))
      (.symbol (.rowFront (call_refused no (by decide)))))
  case list => exact .symbol (.rowFront (call_refused no (by decide)))
  case indirect => exact .symbol (.rowFront (mark_refused no rfl (by decide)))

theorem chain_refused : Answers Symbol.rules (.symbol .postfixExpression) text none :=
  .symbol (.rowFront (primary_refused no))

theorem unary_refused : Answers Symbol.rules (.symbol .unary) text none := by
  refine .symbol <| .choiceOther (.symbol (.rowFront ?operator)) <| .choiceOther ?word <|
    .choiceOther (.symbol (.rowFront (chain_refused no))) (chain_refused no)
  case operator =>
    refine .symbol <| .choiceOther (.token no.cast) <| .choiceOther ?increment <|
      .choiceOther ?decrement <| .choiceOther ?not <| .choiceOther ?complement <|
      .choiceOther ?silence <| .choiceOther ?minus <| .choiceOther ?plus (word_refused no (by decide))
    all_goals exact mark_refused no rfl (by decide)
  case word =>
    refine .symbol <| .choiceOther ?print <| .choiceOther ?yieldFrom <| .choiceOther ?yield <|
      .choiceOther ?throw (.symbol (.rowFront (.token no.loadKeyword)))
    all_goals exact .symbol (.rowFront (word_refused no (by decide)))

theorem expression_refused : Answers Symbol.rules (.symbol .expression) text none :=
  .symbol (.rowFront (.symbol (.rowFront (.symbol (.rowFront (unary_refused no))))))

end NoOperand

/-- No operand starts with an ampersand. -/
theorem byRef_refused {symbol : Symbol} {text : List Char} {length : Nat}
    (refused : Lexeme.NoOperand text → Answers Symbol.rules (.symbol symbol) text none)
    (taken : Answers Symbol.rules (.symbol symbol) text (some length)) :
    Answers Symbol.rules (.symbol .byRef) text none := by
  refine .symbol (.rowFront (.token ?_))
  cases ahead : Lexeme.mark "&".toList text with
  | none => exact ahead
  | some size =>
      have begins := Lexeme.mark_eq_some ahead
      have no : Lexeme.NoOperand text := by
        rw [begins]
        exact Lexeme.noOperand_sign (by decide) rfl
      cases (refused no).unique taken

/-! Arrays -/

theorem follows_spreadItem : Follows limit own (spreadItem (.held limit)) (.symbol .spreadItem) :=
  .symbol <| .here fun _ => .mark_then <| .skip_then <| .last .heldExpression fun _ => .give

theorem follows_plainItem :
    Follows limit true (plainItem (.held limit))
      (.choice (.symbol .keyedItem) (.symbol .expression)) := by
  refine Follows.alike (.here fun span => .bind .heldExpression fun first => .orElse ?keyed .give)
    (.trans .factor_optional <| .choice (.symbol rfl) .refl)
  exact .skip_then <| .mark_then <| .skip_then <| .bind follows_byRef fun byRef =>
    .last .heldExpression fun value => .give

theorem follows_referenceItem :
    Follows limit own (referenceItem (.held limit)) (.row (.symbol .byRef) (.symbol .expression)) :=
  Follows.alike (.here fun _ => .mark_then <| .skip_then <| .last .heldExpression fun _ => .give)
    (.trans .row_left <| .row (.symbol rfl) .refl)

/-- A value that is no key may stand behind a mark for a reference. -/
theorem follows_arrayItem : Follows limit true (arrayItem (.held limit)) (.symbol .arrayItem) := by
  refine .symbol <| .orElse follows_spreadItem ?_
  refine Follows.alike (.orElse follows_plainItem follows_referenceItem) <| .trans .choice_right <|
    .choice .refl <| .trans (.optional_front ?_) (.symbol rfl)
  exact byRef_refused expression_refused

/-- Each place but the last one takes a comma, so the places end before the text does. -/
theorem follows_arrayItemsFrom {count : Nat} {cursor : Cursor} (told : cursor.Told limit true)
    (room : cursor.rest.length < count) :
    (arrayItemsFrom (.held limit) count).AnswersAt (Symbol.rules .arrayItems) cursor := by
  have comma : Follows limit true (do skip; mark ","; skip)
      (rows [.trivia, Token.mark ",", .trivia]) := .skip_then <| .mark_then .skip
  induction count generalizing cursor with
  | zero => exact absurd room (Nat.not_lt_zero _)
  | succ count ih =>
      rcases (Follows.perhaps follows_arrayItem told).cases with
        ⟨-, nothing⟩ | ⟨item, middle, passed, read, passes, taken⟩
      · exact absurd nothing not_answers_optional
      · have toldThere : middle.Told limit true := told.passes passes fun _ => .inl rfl
        rcases (comma toldThere).cases with ⟨fails, nothing⟩ | ⟨_, later, more, next, further, answer⟩
        · refine .takes ((run_bind_of_some read).trans (run_bind_of_some fails.perhaps)) passes ?_
          rw [← Nat.zero_add passed.length]
          exact .row (.starEnd (.rowBack taken (passes.drop ▸ nothing))) taken
        · have toldLater : later.Told limit true := toldThere.passes further fun _ => .inl rfl
          have place : Answers Symbol.rules
              (rows [.optional (.symbol .arrayItem), .trivia, Token.mark ",", .trivia]) cursor.rest
              (some (passed ++ more).length) := by
            rw [List.length_append]
            exact .row taken (passes.drop ▸ answer)
          have shorter : later.rest.length < count := by
            have := length_pos rfl answer
            rw [passes.rest, further.rest, List.length_append, List.length_append] at room
            omega
          have others := (ih toldLater shorter).wrap (item.toList ++ ·)
          exact .onward (passes.trans further)
            ((run_bind_of_some read).trans (run_bind_of_some (run_perhaps_some next))) others
            place.star_row

theorem follows_arrayItems : Follows limit true (arrayItems (.held limit)) (.symbol .arrayItems) :=
  .symbol fun _ told => follows_arrayItemsFrom told (Nat.lt_succ_of_lt told.bound)

theorem follows_shortArray : Follows limit own (shortArray (.held limit)) (.symbol .shortArray) :=
  .symbol <| .here fun _ => .mark_then <| .skip_then <| .bind follows_arrayItems fun _ => .skip_then <|
    .last .mark fun _ => .give

theorem follows_wordArray {word : String} {filled : word ≠ ""} {form : ArrayForm} :
    Follows limit own (wordArray word form (.held limit))
      (rows [Token.keywordCall word filled, .trivia, Token.mark "(", .trivia, Symbol.arrayItems,
        .trivia, Token.mark ")"]) :=
  .here fun _ => .token_then rfl <| .skip_then <| .mark_then <| .skip_then <|
    .bind follows_arrayItems fun _ => .skip_then <| .last .mark fun _ => .give

/-! Literals and variables -/

theorem follows_stringLiteral :
    Follows limit own stringLiteral (.choice (.token .heredoc) (.token .string)) :=
  .here fun _ => .last (.orElse (.lexeme rfl) (.lexeme rfl)) fun _ => .give

theorem follows_numberLiteral : Follows limit own numberLiteral (.token .number) :=
  .here fun _ => .last (.lexeme rfl) fun _ => .give

theorem follows_variableVariable :
    Follows limit own (variableVariable (.held limit)) (.symbol .variableVariable) :=
  .symbol <| .here fun _ => .mark_then <|
    .last (.orElse follows_plainVariable (.map follows_braced)) fun _ => .give

theorem follows_primary : Follows limit own (primary (.held limit)) (.symbol .primary) := by
  refine .symbol <| .orElse follows_parenthesized <| .orElse follows_closure <|
    .orElse follows_arrowFunction <| .orElse follows_newExpression <|
    .orElse follows_matchExpression ?arrays
  refine Follows.alike (.orElse follows_shortArray <| .orElse (.symbol follows_wordArray) ?others)
    (.trans .choice_left <| .choice (.symbol rfl) .refl)
  refine .orElse (.symbol follows_wordArray) ?literals
  refine Follows.alike (.orElse follows_stringLiteral ?rest) .choice_right
  exact .orElse follows_numberLiteral <| .orElse follows_plainVariable <|
    .orElse follows_variableVariable follows_nameOrLiteral

theorem follows_chain : Follows limit own (chain (.held limit)) (.symbol .postfixExpression) :=
  .symbol <| .bind follows_primary fun _ => .last (.many rfl follows_access) fun _ => .give

/-! Operators -/

theorem follows_leadingOperator : Follows limit own leadingOperator (.symbol .prefixOperator) := by
  refine .symbol <| .orElse (.last (.lexeme rfl) fun _ => .give) ?_
  iterate 7 refine .orElse (.last .mark fun _ => .give) ?_
  exact .last .keyword fun _ => .give

theorem follows_leadingOperation :
    Follows limit own (leadingOperation (.held limit)) (.symbol .prefixOperation) :=
  .symbol <| .here fun _ => .bind follows_leadingOperator fun _ => .skip_then <|
    .last .heldUnary fun _ => .give

theorem follows_wordOperation {rule : Reader UnaryOperator} {token : Token}
    (word : Follows limit own rule (.token token)) :
    Follows limit own (wordOperation rule (.held limit))
      (rows [token, .trivia, Symbol.ternary]) :=
  .here fun _ => word.bind fun _ => .skip_then <| .last .heldTernary fun _ => .give

theorem follows_ternaryTail :
    Follows limit own (ternaryTail (.held limit)) (rows [.trivia, Symbol.ternaryTail]) := by
  refine .skip_then <| .symbol <| .orElse (.symbol ?short) (.symbol ?full)
  case short => exact .mark_then <| .skip_then <| .last .heldBinary fun _ => .give
  case full =>
    exact .token_then rfl <| .skip_then <| .bind .heldTernary fun _ => .skip_then <| .token_then rfl <|
      .skip_then <| .last .heldBinary fun _ => .give

theorem follows_ternaryFrom {condition : Expr} :
    Follows limit own (ternaryFrom (.held limit) condition)
      (.star (rows [.trivia, Symbol.ternaryTail])) :=
  .last (.many rfl follows_ternaryTail) fun _ => .give

/-- A key before a double arrow is read as the beginning of a value until the arrow comes. -/
theorem follows_yieldValue {span : Span} :
    Follows limit true (yieldValue (.held limit) span)
      (.choice (.row (.symbol .yieldKey) (.optional (.symbol .yieldValue))) (.symbol .yieldValue)) := by
  have keyed {first : Expr} : Follows limit true (do
      skip
      mark "=>"
      let value ← perhaps do
        skip
        (Nested.held limit).ternary
      return Expr.yield span (some first) value false)
      (rows [.trivia, Token.mark "=>", .optional (.symbol .yieldValue)]) :=
    .skip_then <| .mark_then <| .last (.perhaps <| .symbol <| .skip_then .heldTernary) fun _ => .give
  refine Follows.alike (.skip_then <| .bind .heldBinary fun first =>
    keyed.orElse (.last follows_ternaryFrom fun _ => .give))
    (.trans (.row .refl .factor) <| .trans .factor <| .choice ?key ?value)
  case key =>
    exact .trans (.row .refl (.trans (.row .refl .row_left) .row_left)) <| .trans .row_left <|
      .row (.symbol rfl) .refl
  case value =>
    have ternary : Alike Symbol.rules
        (.row (.symbol .binary) (.star (rows [.trivia, Symbol.ternaryTail]))) (.symbol .ternary) :=
      .symbol rfl
    exact .trans (.row .refl ternary) (.symbol rfl)

theorem follows_yieldExpression :
    Follows limit own (yieldExpression (.held limit))
      (.choice (.symbol .yieldFrom) (.symbol .yieldExpression)) := by
  have from' {span : Span} : Follows limit true (yieldFrom (.held limit) span)
      (rows [.trivia, Token.keyword "from", .trivia, Symbol.ternary]) :=
    .skip_then <| .keyword_then <| .skip_then <| .last .heldTernary fun _ => .give
  exact Follows.alike (.here fun span => .keyword_then <| from'.orElse <| .orElse follows_yieldValue .give)
    (.trans .factor <| .choice (.symbol rfl) <| .trans (.row .refl .optional_row) (.symbol rfl))

theorem follows_keywordExpression :
    Follows limit own (keywordExpression (.held limit)) (.symbol .keywordExpression) := by
  refine .symbol <| .orElse (.symbol <| follows_wordOperation <| .last .keyword fun _ => .give) ?_
  refine Follows.alike (.orElse follows_yieldExpression <| .orElse (.symbol ?throw) (.symbol ?load))
    .choice_right
  case throw => exact follows_wordOperation <| .last .keyword fun _ => .give
  case load => exact follows_wordOperation <| .last (.lexeme rfl) fun _ => .give

theorem follows_assignOperator :
    Follows limit own assignOperator (.symbol .assignmentOperator) := by
  refine .symbol ?_
  iterate 13 refine .orElse (.last .mark fun _ => .give) ?_
  exact .last (.token rfl) fun _ => .give

theorem follows_chainOrAssignment :
    Follows limit own (chainOrAssignment (.held limit))
      (.choice (.symbol .assignment) (.symbol .postfixExpression)) := by
  refine Follows.alike (.bind follows_chain fun target => .orElse (.skip_then ?assigned) .give)
    (.trans .factor_optional <| .choice (.symbol rfl) .refl)
  exact .bind follows_assignOperator fun operator => .skip_then <| .bind follows_byRef fun byRef =>
    .last .heldTernary fun value => .give

theorem follows_unary : Follows limit own (unary (.held limit)) (.symbol .unary) :=
  .symbol <| .orElse follows_leadingOperation <| .orElse follows_keywordExpression
    follows_chainOrAssignment

theorem follows_instanceOfWord :
    Follows limit own instanceOfWord (.token (.keyword "instanceof")) := by
  refine .last (.lexeme rfl) fun word => ?_
  dsimp only
  split
  · exact .last follows_noteMisread fun _ => .give
  · exact .give

theorem follows_binaryOperator : Follows limit own binaryOperator (.symbol .binaryOperator) := by
  refine .symbol ?_
  iterate 25 refine .orElse (.last (.token rfl) fun _ => .give) ?_
  exact follows_instanceOfWord

theorem follows_binary : Follows limit own (binary (.held limit)) (.symbol .binary) := by
  refine .symbol <| .bind follows_unary fun first => .last (.many rfl ?_) fun rest => .give
  exact .skip_then <| .bind follows_binaryOperator fun operator => .skip_then <|
    .last .heldUnary fun operand => .give

theorem follows_ternary : Follows limit own (ternary (.held limit)) (.symbol .ternary) :=
  .symbol <| .bind follows_binary fun _ => follows_ternaryFrom

theorem follows_lowOperator : Follows limit own lowOperator (.symbol .lowLogicalOperator) := by
  refine .symbol ?_
  iterate 2 refine .orElse (.last .keyword fun _ => .give) ?_
  exact .fail_last (.last .keyword fun _ => .give)

theorem follows_expression : Follows limit own (expression (.held limit)) (.symbol .expression) := by
  refine .symbol <| .bind follows_ternary fun first => .last (.many rfl ?_) fun rest => .give
  exact .skip_then <| .bind follows_lowOperator fun operator => .skip_then <|
    .last .heldTernary fun operand => .give

end Reader

end PhpAudit
