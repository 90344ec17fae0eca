import PhpAudit.Proofs.FollowedExpressions

/-!
The readers of statements and of whole programs follow their rules of the grammar.
-/

namespace PhpAudit

namespace Reader

open Form

variable {limit : Nat} {own : Bool}

/-! Tags -/

theorem follows_inlineHtml : Follows limit own inlineHtml (.token .inlineHtml) :=
  .here fun _ => .last (.lexeme rfl) fun _ => .give

theorem follows_openingTag : Follows limit own openingTag (.token .openingTag) :=
  .here fun _ => .last (.lexeme rfl) fun _ => .give

theorem follows_closingTag : Follows limit own closingTag (.symbol .closingTag) :=
  .symbol <| .here fun _ => .mark_then <| .bind (.perhaps follows_inlineHtml) fun _ =>
    .last (.perhaps follows_openingTag) fun _ => .give

/-! Bodies -/

theorem follows_condition : Follows limit own (condition (.held limit)) (.symbol .condition) :=
  .symbol <| .mark_then <| .skip_then <| .bind follows_expression fun _ => .skip_then <|
    .last .mark fun _ => .give

theorem follows_colonBody {word : String} {filled : word ≠ ""} :
    Follows limit own (colonBody word (.held limit)) (Symbol.colonBody (.keyword word filled)) :=
  .here fun _ => .mark_then <| .skip_then <| .bind follows_statementList fun _ => .keyword_then <|
    .skip_then <| .last follows_terminator fun _ => .give

theorem follows_loopBody {word : String} {filled : word ≠ ""} {span : Span} {symbol : Symbol}
    (body : Symbol.rules symbol = Symbol.colonBody (.keyword word filled)) :
    Follows limit true (loopBody word span (.held limit))
      (.choice (.symbol symbol) (.symbol .statement)) :=
  .orElse (.alike follows_colonBody (.symbol body)) <| .last .heldStatement fun _ => .give

/-! Conditional statements -/

theorem follows_elseIfClause :
    Follows limit own (elseIfClause (.held limit)) (.symbol .elseIfClause) :=
  .symbol <| .skip_then <| .here fun _ => .keyword_then <| .skip_then <|
    .bind follows_condition fun _ => .skip_then <| .last .heldStatement fun _ => .give

theorem follows_elseClause : Follows limit own (elseClause (.held limit)) (.symbol .elseClause) :=
  .symbol <| .skip_then <| .here fun _ => .keyword_then <| .skip_then <|
    .last .heldStatement fun _ => .give

theorem follows_elseIfColonClause :
    Follows limit own (elseIfColonClause (.held limit)) (.symbol .elseIfColonClause) :=
  .symbol <| .here fun _ => .keyword_then <| .skip_then <| .bind follows_condition fun _ =>
    .skip_then <| .here fun _ => .mark_then <| .skip_then <| .last follows_statementList fun _ => .give

theorem follows_elseColonClause :
    Follows limit own (elseColonClause (.held limit)) (.symbol .elseColonClause) :=
  .symbol <| .here fun _ => .keyword_then <| .skip_then <| .here fun _ => .mark_then <| .skip_then <|
    .last follows_statementList fun _ => .give

theorem follows_ifColon {span : Span} {condition : Expr} :
    Follows limit own (ifColon (.held limit) span condition) (.symbol .ifColonBody) := by
  refine .symbol <| .here fun colon => .mark_then <| .skip_then <|
    .bind follows_statementList fun statements => ?_
  refine .bind (.many rfl follows_elseIfColonClause) fun elseIfs => ?_
  exact .bind (.perhaps follows_elseColonClause) fun otherwise => .keyword_then <| .skip_then <|
    .last follows_terminator fun _ => .give

theorem follows_ifPlain {span : Span} {condition : Expr} :
    Follows limit true (ifPlain (.held limit) span condition) (.symbol .ifStatementBody) :=
  .symbol <| .here fun _ => .bind .heldStatement fun _ => .bind (.many rfl follows_elseIfClause) fun _ =>
    .last (.perhaps follows_elseClause) fun _ => .give

theorem follows_ifStatement : Follows limit own (ifStatement (.held limit)) (.symbol .ifStatement) :=
  .symbol <| .here fun _ => .keyword_then <| .skip_then <| .bind follows_condition fun _ =>
    .skip_then <| .orElse follows_ifColon follows_ifPlain

theorem follows_switchCase : Follows limit own (switchCase (.held limit)) (.symbol .switchCase) := by
  refine .symbol <| .here fun span => .bind (.orElse (.symbol ?label) ?otherwise) fun condition =>
    .skip_then <| .bind (.orElse .mark .mark) fun _ => .skip_then <|
    .last follows_statementList fun _ => .give
  case label => exact .keyword_then <| .skip_then (.map follows_expression)
  case otherwise => exact .last .keyword fun _ => .give

theorem follows_switchCases :
    Follows limit own (switchCases (.held limit))
      (rows [.trivia, .optional (rows [Token.mark ";", .trivia]), .star Symbol.switchCase]) :=
  .skip_then <| .bind (.discard <| .perhaps <| .mark_then .skip) fun _ => .many rfl follows_switchCase

theorem follows_switchStatement :
    Follows limit own (switchStatement (.held limit)) (.symbol .switchStatement) := by
  have regroup {form : Form Symbol} : Alike Symbol.rules
      (.row (rows [.trivia, .optional (rows [Token.mark ";", .trivia]), .star Symbol.switchCase]) form)
      (rows [.trivia, .optional (rows [Token.mark ";", .trivia]), .star Symbol.switchCase, form]) :=
    .trans .row_right <| .row .refl .row_right
  refine .symbol <| .here fun span => .keyword_then <| .skip_then <| .bind follows_condition
    fun subject => .skip_then <| .last (.orElse (.symbol ?braces) (.symbol ?colon)) fun cases => .give
  case braces =>
    exact .mark_then <| Follows.alike (.bind follows_switchCases fun cases => .last .mark fun _ => .give)
      regroup
  case colon =>
    exact .mark_then <| Follows.alike (.bind follows_switchCases fun cases => .keyword_then <| .skip_then <|
      .last follows_terminator fun _ => .give) regroup

/-! Loops -/

theorem follows_whileStatement :
    Follows limit own (whileStatement (.held limit)) (.symbol .whileStatement) :=
  .symbol <| .here fun _ => .keyword_then <| .skip_then <| .bind follows_condition fun _ =>
    .skip_then <| (follows_loopBody rfl).last fun _ => .give

theorem follows_doWhileStatement :
    Follows limit own (doWhileStatement (.held limit)) (.symbol .doWhileStatement) :=
  .symbol <| .here fun _ => .keyword_then <| .skip_then <| .bind .heldStatement fun _ =>
    .skip_then <| .keyword_then <| .skip_then <| .bind follows_condition fun _ => .skip_then <|
    .last follows_terminator fun _ => .give

theorem follows_forExpressions :
    Follows limit own (forExpressions (.held limit)) (.symbol .forExpressions) :=
  .symbol <| .last (.perhaps (.commaList follows_expression)) fun _ => .give

theorem follows_forStatement :
    Follows limit own (forStatement (.held limit)) (.symbol .forStatement) := by
  refine .symbol <| .here fun span => .keyword_then <| .skip_then <| .mark_then <| .skip_then ?_
  refine .bind follows_forExpressions fun initializers => .skip_then <| .mark_then <| .skip_then ?_
  refine .bind follows_forExpressions fun conditions => .skip_then <| .mark_then <| .skip_then ?_
  refine .bind follows_forExpressions fun steps => .skip_then <| .mark_then <| .skip_then ?_
  exact (follows_loopBody rfl).last fun body => .give

/-- The target is read before it is known whether it is a key. -/
theorem follows_foreachTarget :
    Follows limit own (foreachTarget (.held limit)) (.symbol .foreachTarget) := by
  have arrow : Follows limit true (do skip; mark "=>"; skip)
      (rows [.trivia, Token.mark "=>", .trivia]) := .skip_then <| .mark_then .skip
  have target {own : Bool} {key : Option Expr} : Follows limit own (do
      let byRef ← byRef
      return (key, byRef, ← chain (.held limit)))
      (rows [.optional Symbol.byRef, Symbol.postfixExpression]) :=
    .bind follows_byRef fun byRef => .last follows_chain fun _ => .give
  refine .symbol fun cursor told => ?_
  rcases (follows_chain told).cases with ⟨fails, nothing⟩ | ⟨first, middle, passed, read, passes, taken⟩
  · have key : Answers Symbol.rules (.symbol .foreachKey) cursor.rest none := .symbol (.rowFront nothing)
    exact .congr (run_bind_of_some fails.perhaps) (key.without (target told))
  · have moved := List.length_pos_iff.mp (length_pos rfl taken)
    have toldThere : middle.Told limit true := told.passes passes fun _ => .inr moved
    have found := run_perhaps_some read
    rcases (arrow toldThere).cases with ⟨fails, nothing⟩ | ⟨_, later, more, next, further, answer⟩
    · have key : Answers Symbol.rules (.symbol .foreachKey) cursor.rest none :=
        .symbol (.rowBack taken (passes.drop ▸ nothing))
      have mark := byRef_refused chain_refused taken
      exact .takes ((run_bind_of_some found).trans (run_bind_of_some fails.given)) passes
        (key.without (mark.without taken))
    · have toldLater : later.Told limit true := toldThere.passes further fun _ => .inl rfl
      have key : Answers Symbol.rules (.symbol .foreachKey) cursor.rest (some (passed ++ more).length) := by
        rw [List.length_append]
        exact .symbol (.row taken (passes.drop ▸ answer))
      have arrowed : (given (do skip; mark "=>"; skip)).run middle = some (true, later) :=
        run_orElse_of_some (run_bind_of_some (run_bind_of_some next))
      exact .onward (passes.trans further) ((run_bind_of_some found).trans (run_bind_of_some arrowed))
        (target toldLater) (Answers.choice key).append

theorem follows_foreachStatement :
    Follows limit own (foreachStatement (.held limit)) (.symbol .foreachStatement) := by
  refine .symbol <| .here fun span => .keyword_then <| .skip_then <| .mark_then <| .skip_then <|
    .bind follows_expression fun subject => .skip_then <| .keyword_then <| .skip_then ?_
  exact .bind follows_foreachTarget fun _ => .skip_then <| .mark_then <| .skip_then <|
    (follows_loopBody rfl).last fun body => .give

/-! Exceptions -/

theorem follows_catchClause : Follows limit own (catchClause (.held limit)) (.symbol .catchClause) := by
  have other : Follows limit true (do skip; mark "|"; skip; listedName)
      (rows [.trivia, Token.mark "|", .trivia, Token.name]) :=
    .skip_then <| .mark_then <| .skip_then follows_listedName
  refine .symbol <| .skip_then <| .here fun span => .keyword_then <| .skip_then <| .mark_then <|
    .skip_then <| Follows.alike
    (.bind follows_listedName fun first => .bind (other.many rfl) fun others => ?_)
    (.trans .row_left <| .row (.symbol rfl) .refl)
  exact .skip_then <| .bind (.perhaps follows_dollarName) fun binding => .skip_then <| .mark_then <|
    .skip_then <| .last follows_block fun block => .give

theorem follows_finallyClause :
    Follows limit own (finallyClause (.held limit)) (.symbol .finallyClause) :=
  .symbol <| .skip_then <| .keyword_then <| .skip_then follows_block

theorem follows_tryStatement :
    Follows limit own (tryStatement (.held limit)) (.symbol .tryStatement) :=
  .symbol <| .here fun _ => .keyword_then <| .skip_then <| .bind follows_block fun _ =>
    .bind (.many rfl follows_catchClause) fun _ => .last (.perhaps follows_finallyClause) fun _ => .give

/-! Simple statements -/

theorem follows_wordStatement {word : String} {filled : word ≠ ""} {build : Span → Option Expr → Stmt} :
    Follows limit own (wordStatement word build (.held limit))
      (rows [Token.keyword word filled, Symbol.optionalExpression, .trivia, Symbol.terminator]) :=
  .here fun _ => .keyword_then <| .bind (.symbol <| .perhaps <| .skip_then follows_expression) fun _ =>
    .skip_then <| .last follows_terminator fun _ => .give

theorem follows_echoStatement :
    Follows limit own (echoStatement (.held limit)) (.symbol .echoStatement) :=
  .symbol <| .here fun _ => .keyword_then <| .skip_then <| .bind (.symbol (.commaList follows_expression))
    fun _ => .skip_then <| .last follows_terminator fun _ => .give

theorem follows_globalStatement :
    Follows limit own (globalStatement (.held limit)) (.symbol .globalStatement) :=
  .symbol <| .here fun _ => .keyword_then <| .skip_then <| .bind (.commaList follows_dollarName) fun _ =>
    .skip_then <| .last follows_terminator fun _ => .give

theorem follows_staticStatement :
    Follows limit own (staticStatement (.held limit)) (.symbol .staticStatement) :=
  .symbol <| .here fun _ => .keyword_then <| .skip_then <|
    .bind (.commaList (.symbol follows_variableEntry)) fun _ => .skip_then <|
    .last follows_terminator fun _ => .give

theorem follows_constStatement :
    Follows limit own (constStatement (.held limit)) (.symbol .constStatement) :=
  .symbol <| .here fun _ => .keyword_then <| .skip_then <|
    .bind (.commaList (.symbol follows_constantEntry)) fun _ => .skip_then <|
    .last follows_terminator fun _ => .give

theorem follows_declareStatement :
    Follows limit own (declareStatement (.held limit)) (.symbol .declareStatement) :=
  .symbol <| .here fun _ => .keyword_then <| .skip_then <| .mark_then <| .skip_then <|
    .bind (.commaList (.symbol follows_constantEntry)) fun _ => .skip_then <| .mark_then <| .skip_then <|
    .last (.orElse (.map follows_block) (.last follows_terminator fun _ => .give)) fun _ => .give

theorem follows_noopStatement : Follows limit own noopStatement (.symbol .noopStatement) :=
  .symbol <| .here fun _ => .last .mark fun _ => .give

theorem follows_expressionStatement :
    Follows limit own (expressionStatement (.held limit)) (.symbol .expressionStatement) :=
  .symbol <| .here fun _ => .bind follows_expression fun _ => .skip_then <|
    .last follows_terminator fun _ => .give

/-! Namespaces and imports -/

theorem follows_bracedNamespace :
    Follows limit own (bracedNamespace (.held limit)) (.symbol .bracedNamespace) :=
  .symbol <| .here fun _ => .token_then rfl <| .skip_then <|
    .bind (.perhaps <| .bind follows_listedName fun _ => .last .skip fun _ => .give) fun _ =>
    .mark_then <| .skip_then <| .bind follows_statementList fun _ => .last .mark fun _ => .give

theorem follows_namespaceStart : Follows limit own namespaceStart (.symbol .namespaceStart) :=
  .symbol <| .token_then rfl <| .skip_then <| .bind (.discard <| .perhaps <| .token_then rfl .skip) fun _ =>
    .orElse .mark .mark

theorem follows_unbracedNamespace :
    Follows limit own (unbracedNamespace (.held limit)) (.symbol .unbracedNamespace) := by
  refine .symbol <| .here fun span => .token_then rfl <| .skip_then <| .bind follows_neededName fun name =>
    .skip_then <| .bind follows_terminator fun _ => .skip_then <| .last (.symbol (.many rfl ?_))
    fun groups => .give
  exact .bind (.absent follows_namespaceStart) fun _ => .bind .heldStatement fun _ =>
    .last .skip fun _ => .give

theorem follows_useKind : Follows limit own useKind (.symbol .useKind) :=
  .symbol <| .bind (.orElse (.lexeme rfl) (.lexeme rfl)) fun _ => .last .skip fun _ => .give

theorem follows_useItem : Follows limit own useItem (.symbol .useItem) := by
  refine .symbol <| .here fun span => .bind (.discard (.perhaps follows_useKind)) fun _ =>
    .bind follows_neededName fun name => .last (.perhaps ?_) fun localName => .give
  exact .skip_then <| .keyword_then <| .skip_then <| .last follows_memberName fun _ => .give

theorem follows_useGroup : Follows limit own (useGroup (.held limit)) (.symbol .groupUse) :=
  .symbol <| .bind follows_neededName fun _ => .mark_then <| .mark_then <| .skip_then <|
    .bind (.commaList follows_useItem) fun _ => .skip_then <| .bind (.discard <| .perhaps .mark) fun _ =>
    .skip_then <| .last .mark fun _ => .give

theorem follows_useStatement :
    Follows limit own (useStatement (.held limit)) (.symbol .useStatement) := by
  refine .symbol <| .here fun span => .keyword_then <| .skip_then <| .bind (.perhaps follows_useKind)
    fun kind => .bind (.commaList <| .symbol ?_) fun groups => .skip_then <|
    .last follows_terminator fun _ => .give
  exact .orElse follows_useGroup <| .last follows_useItem fun _ => .give

/-! Declarations -/

theorem follows_functionDeclaration :
    Follows limit own (functionDeclaration (.held limit)) (.symbol .functionDeclaration) := by
  refine .symbol <| .here fun span => .bind follows_attributes fun _ => .keyword_then <| .skip_then <|
    .bind follows_byRef fun byRef => .bind follows_neededName fun name => .skip_then <|
    .bind follows_parameterList fun parameters => .skip_then ?_
  exact .bind (.perhaps (.symbol follows_returnHint)) fun returnHint => .last follows_block fun body => .give

theorem follows_classDeclaration :
    Follows limit own (classDeclaration (.held limit)) (.symbol .classDeclaration) := by
  refine .symbol <| .here fun span => .bind follows_attributes fun _ => .bind (.symbol <| .many rfl ?_)
    fun modifiers => .keyword_then <| .skip_then <| .bind follows_neededName fun name => .skip_then <|
    .bind (.perhaps follows_extendsClause) fun parent => .bind follows_implements fun interfaces =>
    .last follows_classBody fun members => .give
  exact .lexeme_then rfl fun _ => .last .skip fun _ => .give

theorem follows_interfaceDeclaration :
    Follows limit own (interfaceDeclaration (.held limit)) (.symbol .interfaceDeclaration) :=
  .symbol <| .here fun _ => .bind follows_attributes fun _ => .keyword_then <| .skip_then <|
    .bind follows_neededName fun _ => .skip_then <|
    .bind (.alike follows_namesAfter (.choice (.symbol rfl) .refl)) fun _ =>
    .last follows_classBody fun _ => .give

theorem follows_traitDeclaration :
    Follows limit own (traitDeclaration (.held limit)) (.symbol .traitDeclaration) :=
  .symbol <| .here fun _ => .bind follows_attributes fun _ => .keyword_then <| .skip_then <|
    .bind follows_neededName fun _ => .skip_then <| .last follows_classBody fun _ => .give

theorem follows_enumDeclaration :
    Follows limit own (enumDeclaration (.held limit)) (.symbol .enumDeclaration) :=
  .symbol <| .here fun _ => .bind follows_attributes fun _ => .token_then rfl <| .skip_then <|
    .bind follows_neededName fun _ => .skip_then <| .bind (.perhaps (.symbol follows_returnHint)) fun _ =>
    .bind follows_implements fun _ => .last follows_classBody fun _ => .give

/-! All statements -/

theorem follows_lone {reader : Reader Stmt} {form : Form Symbol}
    (follows : Follows limit own reader form) : Follows limit own (lone reader) form :=
  follows.last fun _ => .give

theorem follows_statement : Follows limit own (statement (.held limit)) (.symbol .statement) := by
  refine .symbol <| .orElse (follows_lone (.map follows_block)) <| .orElse follows_closingTag <|
    .orElse (follows_lone follows_ifStatement) <| .orElse (follows_lone follows_whileStatement) <|
    .orElse (follows_lone follows_doWhileStatement) <| .orElse (follows_lone follows_forStatement) <|
    .orElse (follows_lone follows_foreachStatement) <|
    .orElse (follows_lone follows_switchStatement) <| .orElse (follows_lone follows_tryStatement) <|
    .orElse (follows_lone (.symbol follows_wordStatement)) <|
    .orElse (follows_lone follows_echoStatement) <|
    .orElse (follows_lone (.symbol follows_wordStatement)) <|
    .orElse (follows_lone (.symbol follows_wordStatement)) <|
    .orElse (follows_lone follows_globalStatement) <|
    .orElse (follows_lone follows_staticStatement) ?packages
  refine Follows.alike (.orElse (follows_lone follows_bracedNamespace) <|
    .orElse (follows_lone follows_unbracedNamespace) ?declarations)
    (.trans .choice_left <| .choice (.symbol rfl) .refl)
  exact .orElse (follows_lone follows_useStatement) <| .orElse (follows_lone follows_constStatement) <|
    .orElse (follows_lone follows_declareStatement) <|
    .orElse (follows_lone follows_functionDeclaration) <|
    .orElse (follows_lone follows_classDeclaration) <|
    .orElse (follows_lone follows_interfaceDeclaration) <|
    .orElse (follows_lone follows_traitDeclaration) <|
    .orElse (follows_lone follows_enumDeclaration) <| .orElse (follows_lone follows_noopStatement) <|
    .fail_last (follows_lone follows_expressionStatement)

theorem follows_program : Follows limit true (program (.held limit)) (.symbol .program) :=
  .symbol <| .bind (.perhaps follows_inlineHtml) fun _ => .bind (.perhaps follows_openingTag) fun _ =>
    .skip_then <| .last follows_statementList fun _ => .give

end Reader

end PhpAudit
