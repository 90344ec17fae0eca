import PhpAudit.Proofs.FollowedStatements

/-!
Parsing ends on every text. The parts of a text are worked out from its end, and at each place they
take what the grammar answers there; so the parser takes what the rule of programs answers. The rules
come back to themselves only with less text, and their repetitions take a character in each round.
-/

namespace PhpAudit

open Form Grammar

/-! The parts of a text -/

namespace Parts

variable {limit : Nat}

theorem tell_startingAt {cursor : Cursor} (told : cursor.Told limit false) :
    (startingAt (.held limit) cursor).Tell cursor.rest where
  hint := Reader.follows_hint told
  unary := Reader.follows_unary told
  binary := Reader.follows_binary told
  ternary := Reader.follows_ternary told
  expression := Reader.follows_expression told
  statement := Reader.follows_statement told

/-- What the parts of a place need is told by the parts of the places behind it. -/
theorem told_table (span : Span) (offset : Nat) (text : List Char) (short : text.length < limit) :
    Cursor.Told limit true ⟨text, span, offset, false, table (.held limit) span offset text⟩ := by
  induction text generalizing span offset with
  | nil =>
      have told : Cursor.Told limit false ⟨[], span, offset, false, []⟩ := by
        refine ⟨short, fun passed rest whole known => ?_⟩
        obtain ⟨rfl, rfl⟩ := List.append_eq_nil_iff.mp whole.symm
        simp at known
      refine ⟨short, fun passed rest whole _ => ?_⟩
      obtain ⟨rfl, rfl⟩ := List.append_eq_nil_iff.mp whole.symm
      exact ⟨_, rfl, tell_startingAt told⟩
  | cons character text ih =>
      have behind := ih (span.next character) (offset + 1) (Nat.lt_of_succ_lt short)
      have told : Cursor.Told limit false ⟨character :: text, span, offset, false,
          nothing :: table (.held limit) (span.next character) (offset + 1) text⟩ := by
        refine ⟨short, fun passed rest whole known => ?_⟩
        cases passed with
        | nil => simp at known
        | cons first passed => exact behind.tell passed rest (List.cons.inj whole).2 (.inl rfl)
      refine ⟨short, fun passed rest whole _ => ?_⟩
      cases passed with
      | nil =>
          cases whole
          exact ⟨_, rfl, tell_startingAt told⟩
      | cons first passed => exact behind.tell passed rest (List.cons.inj whole).2 (.inl rfl)

end Parts

/-! Programs -/

/-- A program takes some of the text, perhaps none. -/
theorem Symbol.not_answers_program (text : List Char) :
    ¬ Answers rules (.symbol .program) text none := by
  intro fails
  cases fails with
  | symbol body =>
      change Answers rules (.row (.optional _) (.row (.optional _) (.row .trivia (.symbol _)))) _ _ at body
      cases body with
      | rowFront html => exact not_answers_optional html
      | rowBack _ body =>
          cases body with
          | rowFront tag => exact not_answers_optional tag
          | rowBack _ body =>
              cases body with
              | rowFront blank => cases blank
              | rowBack _ list =>
                  cases list with
                  | symbol statements =>
                      change Answers rules (.star _) _ _ at statements
                      cases statements

/-- The parser stops where the answer of the program rule ends. -/
theorem exists_program_run (text : List Char) :
    ∃ length, Answers Symbol.rules (.symbol .program) text (some length) ∧
      ∃ statements later, (Reader.program (.ofText text)).run (.ofText text) = some (statements, later) ∧
        later.rest = text.drop length ∧ later.span = ({} : Span).after (text.take length) := by
  have told : (Cursor.ofText text).Told (text.length + 1) true :=
    Parts.told_table {} 0 text (Nat.lt_succ_self _)
  rcases (Reader.follows_program told).cases with
    ⟨-, nothing⟩ | ⟨statements, later, passed, read, passes, answer⟩
  · exact absurd nothing (Symbol.not_answers_program text)
  · refine ⟨passed.length, answer, statements, later, read, passes.drop.symm, ?_⟩
    have taken : text.take passed.length = passed := by
      have whole : text = passed ++ later.rest := passes.rest
      rw [whole, List.take_left]
    rw [taken]
    exact passes.span

theorem exists_parse_stopped_iff (text : String) :
    ∃ length ≤ text.toList.length,
      Answers Symbol.rules (.symbol .program) text.toList (some length) ∧
      ∀ span, parse text = .error (.stopped span) ↔
        length < text.toList.length ∧ span = ({} : Span).after (text.toList.take length) := by
  obtain ⟨length, answer, statements, later, read, rest, place⟩ := exists_program_run text.toList
  refine ⟨length, answer.length_le, answer, fun span => ?_⟩
  have run : parse text = if !later.rest.isEmpty then .error (.stopped later.span)
      else if later.misread then .error .misread else .ok statements := by
    change (Reader.program (Nested.held (text.toList.length + 1))).run (Cursor.start text.toList
      (Parts.table (Nested.held (text.toList.length + 1)) {} 0 text.toList)) = _ at read
    simp only [parse, read]
  by_cases ended : length < text.toList.length
  · have more : later.rest.isEmpty = false := by
      rw [rest, List.isEmpty_eq_false_iff, ← List.length_pos_iff, List.length_drop]
      omega
    rw [run, more, ← place]
    simp [ended, eq_comm]
  · have done : later.rest.isEmpty = true := by
      rw [rest, List.isEmpty_iff, List.drop_eq_nil_iff]
      omega
    rw [run, done]
    cases later.misread <;> simp [ended]

/-- Every rule has exactly one answer for every text, and the parser stops where the answer of the
program rule ends. A rule is entered again only at a later place, so it is inside itself no more often
than there are characters, and all rules together nest no deeper than their layers allow for each of
them. No repeated item is empty, so no repetition has more rounds than there are characters. -/
theorem parse_ends (text : String) :
    (∀ symbol, ∃ answer, Answers Symbol.rules (.symbol symbol) text.toList answer ∧
      ∀ other, Answers Symbol.rules (.symbol symbol) text.toList other → other = answer) ∧
    (∃ length ≤ text.toList.length,
      Answers Symbol.rules (.symbol .program) text.toList (some length) ∧
      ∀ span, parse text = .error (.stopped span) ↔
        length < text.toList.length ∧ span = ({} : Span).after (text.toList.take length)) ∧
    (∀ count symbol part, Calls Symbol.rules (count + 1) symbol text.toList symbol part →
      part <:+ text.toList ∧ part.length < text.toList.length) ∧
    (∀ depth symbol, Reenters Symbol.rules depth symbol text.toList → depth ≤ text.toList.length) ∧
    (∀ count symbol last part, Calls Symbol.rules count symbol text.toList last part →
      count ≤ 13 * text.toList.length + 12) ∧
    (∀ symbol, ∀ item ∈ (Symbol.rules symbol).repeated,
      ¬ Answers Symbol.rules item text.toList (some 0) ∧
      (∃ count, Rounds Symbol.rules item text.toList count) ∧
      ∀ count, Rounds Symbol.rules item text.toList count → count ≤ text.toList.length) := by
  refine ⟨fun symbol => ?_, exists_parse_stopped_iff text, fun count symbol part calls =>
    ⟨calls.suffix, Ordered.reenters Symbol.ordered calls⟩, fun depth symbol => Ordered.depth_le Symbol.ordered,
    fun count symbol last part calls => ?_, fun symbol item member => ⟨fun empty => ?_, ?_⟩⟩
  · obtain ⟨answer, taken⟩ := Ordered.answers Symbol.ordered symbol text.toList
    exact ⟨answer, taken, fun other again => again.unique taken⟩
  · have bound := Ordered.count_le Symbol.ordered Symbol.layer_lt calls
    have := symbol.layer_lt
    omega
  · exact absurd (Ordered.positive Symbol.ordered (Ordered.repeated Symbol.ordered symbol item member) empty)
      (Nat.lt_irrefl 0)
  · exact Ordered.rounds Symbol.ordered member text.toList

/-- The operand of a negation is an expression of the same kind. -/
theorem calls_negation (rest : List Char) (solid : Lexeme.trivia rest = 0) :
    Calls Symbol.rules 2 .unary ('!' :: rest) .unary rest := by
  have operator : Answers Symbol.rules (.symbol .prefixOperator) ('!' :: rest) (some 1) :=
    .symbol <| .choiceOther (.token rfl) <| .choiceOther (.token rfl) <| .choiceOther (.token rfl) <|
      .choice (.token rfl)
  have operand : Enters Symbol.rules (Symbol.rules .prefixOperation) ('!' :: rest) .unary
      (rest.drop (Lexeme.trivia rest)) := .rowBack operator (.rowBack .trivia .symbol)
  rw [solid] at operand
  exact .next (.choice .symbol) (.next operand .here)

theorem parse_ends_negations :
    (Reenters Symbol.rules 2 .unary "!!a".toList ∧ 2 ≤ "!!a".toList.length) ∧
    (Calls Symbol.rules 2 .unary "!!a".toList .unary "!a".toList ∧
      "!a".toList.length < "!!a".toList.length ∧ 2 ≤ 13 * "!!a".toList.length + 12) ∧
    (rows [.trivia, Symbol.binaryOperator, .trivia, Symbol.unary] ∈ (Symbol.rules .binary).repeated ∧
      ¬ Answers Symbol.rules (rows [.trivia, Symbol.binaryOperator, .trivia, Symbol.unary])
        "!!a".toList (some 0)) := by
  obtain ⟨-, -, later, depth, nesting, items⟩ := parse_ends "!!a"
  have outer : Calls Symbol.rules 2 .unary "!!a".toList .unary "!a".toList := calls_negation _ rfl
  have inner : Calls Symbol.rules 2 .unary "!a".toList .unary "a".toList := calls_negation _ rfl
  have twice : Reenters Symbol.rules 2 .unary "!!a".toList := .again outer (.again inner .none)
  have member : rows [.trivia, Symbol.binaryOperator, .trivia, Symbol.unary] ∈
      (Symbol.rules .binary).repeated := List.mem_cons_self
  exact ⟨⟨twice, depth 2 .unary twice⟩, ⟨outer, (later 1 .unary _ outer).2, nesting 2 .unary _ _ outer⟩,
    member, (items .binary _ member).1⟩

end PhpAudit
