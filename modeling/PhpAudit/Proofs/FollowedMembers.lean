import PhpAudit.Proofs.FollowedForms

/-!
The readers of names, type hints and members follow their rules of the grammar.
-/

namespace PhpAudit

namespace Reader

open Form

variable {limit : Nat} {own : Bool}

theorem follows_terminator : Follows limit own terminator (.symbol .terminator) :=
  .symbol <| .orElse .mark (.ahead .mark)

/-! Names -/

theorem follows_noteMisread : Follows limit own noteMisread .empty := by
  intro cursor told
  have passes : cursor.Passes [] cursor.noted := ⟨rfl, rfl, rfl, rfl, fun _ => rfl⟩
  exact .takes rfl passes .empty

theorem follows_neededName : Follows limit own neededName (.token .name) := by
  refine .here fun span => .last (.lexeme rfl) fun value => ?_
  dsimp only
  split
  · exact .last follows_noteMisread fun _ => .give
  · exact .give

theorem follows_listedName : Follows limit own listedName (.token .name) :=
  .last (.lexeme rfl) fun _ => .give

theorem follows_nameList : Follows limit own (nameList limit) (.symbol .nameList) :=
  .symbol <| .last (.commaList follows_listedName) fun _ => .give

theorem follows_memberName : Follows limit own memberName (.token .identifier) :=
  .here fun _ => .last (.lexeme rfl) fun _ => .give

theorem follows_dollarName : Follows limit own dollarName (.token .dollarName) :=
  .lexeme rfl

theorem follows_byRef : Follows limit own byRef (.optional (.symbol .byRef)) :=
  .given <| .symbol <| .mark_then .skip

theorem follows_attributes : Follows limit own (attributes limit) (.symbol .attributes) :=
  .symbol <| .discard <| .many rfl <| .token_then rfl .skip

/-! Type hints -/

theorem follows_hintName : Follows limit own hintName (.token .qualified) :=
  .here fun _ => .last (.lexeme rfl) fun _ => .give

theorem follows_hintAtom : Follows limit own (hintAtom (.held limit)) (.symbol .typeAtom) := by
  refine .symbol <| .orElse (.symbol ?group) follows_hintName
  exact .mark_then <| .skip_then <| .bind .heldHint fun _ => .skip_then <| .last .mark fun _ => .give

theorem follows_nullableHint : Follows limit own (nullableHint (.held limit)) (.symbol .nullableHint) :=
  .symbol <| .here fun _ => .mark_then <| .skip_then <| .last follows_hintAtom fun _ => .give

/-- Atoms with bars between them, atoms with ampersands between them, or a single one. -/
theorem follows_joinedHint :
    Follows limit own (joinedHint (.held limit))
      (choices [.symbol .unionHint, .symbol .intersectionHint, .symbol .typeAtom]) := by
  have bars : Follows limit true (do skip; mark "|"; skip; hintAtom (.held limit))
      (rows [.trivia, Token.mark "|", .trivia, Symbol.typeAtom]) :=
    .skip_then <| .mark_then <| .skip_then follows_hintAtom
  have ampersands : Follows limit true
      (do skip; mark "&"; absent (do skip; mark "$" <|> mark "..."); skip; hintAtom (.held limit))
      (rows [.trivia, Token.mark "&", .absent (rows [.trivia, choices [Token.mark "$", Token.mark "..."]]),
        .trivia, Symbol.typeAtom]) :=
    .skip_then <| .mark_then <| .bind (.absent <| .skip_then <| .orElse .mark .mark) fun _ =>
      .skip_then follows_hintAtom
  have joined : Follows limit own (joinedHint (.held limit)) _ :=
    .here fun span => .bind follows_hintAtom fun first =>
      bars.many_then rfl (.last (ampersands.many rfl) fun _ => .give) (fun _ _ => .give) nofun
  refine joined.alike <| .trans .factor <| .choice (.trans (.row .refl .row_empty) (.symbol rfl)) ?_
  exact .trans (.row .refl .star_choice) <| .trans .factor_optional <| .choice (.symbol rfl) .refl

theorem follows_hint : Follows limit own (hint (.held limit)) (.symbol .typeHint) :=
  .symbol <| .orElse follows_nullableHint follows_joinedHint

theorem follows_returnHint :
    Follows limit own (returnHint (.held limit))
      (rows [Token.mark ":", .trivia, Symbol.typeHint, .trivia]) :=
  .mark_then <| .skip_then <| .bind follows_hint fun _ => .last .skip fun _ => .give

theorem follows_leadingHint :
    Follows limit own (leadingHint (.held limit)) (rows [Symbol.typeHint, .trivia]) :=
  .bind follows_hint fun _ => .last .skip fun _ => .give

/-! Blocks and parameters -/

theorem follows_statementList :
    Follows limit true (statementList (.held limit)) (.symbol .statementList) :=
  .symbol <| .last (.many rfl <| .bind .heldStatement fun _ => .last .skip fun _ => .give) fun _ => .give

theorem follows_block : Follows limit own (block (.held limit)) (.symbol .block) :=
  .symbol <| .here fun _ => .mark_then <| .skip_then <| .bind follows_statementList fun _ =>
    .last .mark fun _ => .give

theorem follows_initialValue :
    Follows limit own (initialValue (.held limit)) Symbol.initialValue :=
  .perhaps <| .skip_then <| .mark_then <| .skip_then .heldExpression

theorem follows_parameter : Follows limit own (parameter (.held limit)) (.symbol .parameter) := by
  refine .symbol <| .here fun span => .bind follows_attributes fun _ => ?_
  refine .bind (.many rfl <| .lexeme_then rfl fun _ => .last .skip fun _ => .give) fun modifiers => ?_
  refine .bind (.perhaps (.symbol follows_leadingHint)) fun hint => .bind follows_byRef fun byRef => ?_
  refine .bind (.given <| .symbol <| .mark_then .skip) fun variadic => ?_
  exact .bind follows_dollarName fun name => .last follows_initialValue fun initial => .give

theorem follows_parameterList :
    Follows limit own (parameterList (.held limit)) (.symbol .parameterList) :=
  .symbol <| .mark_then <| .skip_then <| .bind (.trailingCommaList follows_parameter) fun _ =>
    .skip_then <| .last .mark fun _ => .give

/-! Members -/

theorem follows_memberModifier :
    Follows limit own (do let modifier ← lexeme Lexeme.memberModifier; skip; return lowerWord modifier)
      (rows [Token.memberModifier, .trivia]) :=
  .lexeme_then rfl fun _ => .last .skip fun _ => .give

theorem follows_memberModifiers :
    Follows limit own (memberModifiers (.held limit)) (.symbol .memberModifiers) :=
  .symbol <| .many rfl follows_memberModifier

theorem follows_traitUse : Follows limit own (traitUse (.held limit)) (.symbol .traitUse) :=
  .symbol <| .here fun _ => .keyword_then <| .skip_then <| .bind follows_nameList fun _ =>
    .skip_then <| .last (.orElse (.token rfl) follows_terminator) fun _ => .give

theorem follows_enumCase : Follows limit own (enumCase (.held limit)) (.symbol .enumCase) :=
  .symbol <| .here fun _ => .keyword_then <| .skip_then <| .bind follows_memberName fun _ =>
    .bind follows_initialValue fun _ => .skip_then <| .last follows_terminator fun _ => .give

theorem follows_constantEntry :
    Follows limit own (constantEntry (.held limit))
      (rows [Token.identifier, .trivia, Token.mark "=", .trivia, Symbol.expression]) :=
  .here fun _ => .bind follows_memberName fun _ => .skip_then <| .mark_then <| .skip_then <|
    .last .heldExpression fun _ => .give

theorem follows_classConstant :
    Follows limit own (classConstant (.held limit)) (.symbol .classConstant) := by
  refine .symbol <| .here fun span => .bind follows_memberModifiers fun modifiers =>
    .keyword_then <| .skip_then ?_
  refine .bind (.perhaps <| .symbol ?type) fun hint => .bind (.commaList (.symbol follows_constantEntry))
    fun entries => .skip_then <| .last follows_terminator fun _ => .give
  refine Follows.alike (.bind follows_leadingHint fun hint => .last (.ahead ?name) fun _ => .give)
    .row_right
  exact .bind (.discard follows_memberName) fun _ => .skip_then .mark

theorem follows_method : Follows limit own (method (.held limit)) (.symbol .methodDeclaration) := by
  refine .symbol <| .here fun span => .bind follows_memberModifiers fun modifiers =>
    .keyword_then <| .skip_then <| .bind follows_byRef fun byRef => .bind follows_memberName fun name =>
    .skip_then <| .bind follows_parameterList fun parameters => .skip_then ?_
  refine .bind (.perhaps (.symbol follows_returnHint)) fun returnHint => ?_
  exact .last (.orElse (.map follows_block) (.last follows_terminator fun _ => .give)) fun body => .give

theorem follows_variableEntry :
    Follows limit own (variableEntry (.held limit)) (rows [Token.dollarName, Symbol.initialValue]) :=
  .here fun _ => .bind follows_dollarName fun _ => .last follows_initialValue fun _ => .give

theorem follows_property :
    Follows limit own (property (.held limit)) (.symbol .propertyDeclaration) := by
  refine .symbol <| Follows.alike (.here fun span => ?_) (.trans .choice_fails <| .row (.symbol rfl) .refl)
  refine .many_then rfl follows_memberModifier (fun _ _ => .fails (.bind rfl) (.absentFails .empty))
    (fun first others => ?_) fun _ => .absentFails .empty
  refine .bind (.perhaps (.symbol follows_leadingHint)) fun hint => ?_
  exact .bind (.commaList (.symbol follows_variableEntry)) fun entries => .skip_then <|
    .last follows_terminator fun _ => .give

theorem follows_member : Follows limit own (member (.held limit)) (.symbol .member) :=
  .symbol <| .bind follows_attributes fun _ => .orElse follows_traitUse <| .orElse follows_enumCase <|
    .orElse follows_classConstant <| .orElse follows_method follows_property

theorem follows_classBody : Follows limit own (classBody (.held limit)) (.symbol .classBody) :=
  .symbol <| .mark_then <| .skip_then <|
    .bind (.many rfl <| .bind follows_member fun _ => .last .skip fun _ => .give) fun _ =>
      .last .mark fun _ => .give

theorem follows_extendsClause : Follows limit own extendsClause (.symbol .extendsClause) :=
  .symbol <| .keyword_then <| .skip_then <| .bind follows_neededName fun _ =>
    .last .skip fun _ => .give

theorem follows_namesAfter {word : String} {filled : word ≠ ""} :
    Follows limit own (namesAfter word (.held limit))
      (.optional (rows [Token.keyword word filled, .trivia, Symbol.nameList, .trivia])) :=
  .last (.perhaps <| .keyword_then <| .skip_then <| .bind follows_nameList fun _ =>
    .last .skip fun _ => .give) fun _ => .give

theorem follows_implements :
    Follows limit own (namesAfter "implements" (.held limit))
      (.optional (.symbol .implementsClause)) :=
  .alike follows_namesAfter (.choice (.symbol rfl) .refl)

end Reader

end PhpAudit
