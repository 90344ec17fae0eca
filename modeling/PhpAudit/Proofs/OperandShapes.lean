import PhpAudit.Proofs.OperatorGroupings
import PhpAudit.Proofs.Reading

/-!
How tightly the parts of an expression are bound. An operand of a chain is an expression that no
operator joins, or in a chain of word operators one that binds tighter than these. So in every pair
of the tree that a chain is folded to, both operands may stand where they are.
-/

namespace PhpAudit

/-- How tightly the parts of an expression are bound. A conditional stands between the word operators
and all others; nothing is bound tighter than what no operator joins. -/
def Expr.level : Expr → Nat
  | .binary _ _ operator _ => operator.precedence
  | .ternary _ _ _ _ => 6
  | _ => 22

/-- No operator of two or three operands joins the expression. -/
def Expr.Whole (expression : Expr) : Prop :=
  ∀ operator : BinaryOperator, operator.precedence < expression.level

theorem BinaryOperator.precedence_le (operator : BinaryOperator) : operator.precedence ≤ 21 := by
  cases operator <;> decide

theorem Expr.whole_of_level {expression : Expr} (level : expression.level = 22) :
    expression.Whole := by
  intro operator
  rw [level]
  exact Nat.lt_succ_of_le operator.precedence_le

theorem Expr.level_access (target : Expr) (step : Access) : (target.access step).level = 22 := by
  cases step with
  | call arguments => cases target <;> rfl
  | _ => rfl

namespace BinaryOperator

/-- Whether the expression may be the right operand, or the left one, as it is: its parts are bound
tighter, or just as tight and the operator associates to that side. -/
def Fits (operator : BinaryOperator) (right : Bool) (operand : Expr) : Prop :=
  operator.precedence < operand.level ∨
    (operand.level = operator.precedence ∧ operator.rightAssociative = right)

/-- Before a power stands an operand that no operator joins. -/
theorem Fits.whole_of_power {operand : Expr} (fits : power.Fits false operand) : operand.Whole := by
  rcases fits with tighter | ⟨-, side⟩
  · have most : operand.level ≤ 22 := by
      cases operand with
      | binary span left operator right => exact Nat.le_succ_of_le operator.precedence_le
      | _ => simp [Expr.level]
    refine Expr.whole_of_level ?_
    have least : 21 < operand.level := tighter
    omega
  · cases side

end BinaryOperator

/-- The operator is a word that takes the whole expression behind it, to print it, to throw it or to
load the file it names. No other operator before an operand begins with one of these letters. -/
def UnaryOperator.isCommand (operator : UnaryOperator) : Bool :=
  operator.symbol.toList.head?.any fun letter => ['p', 't', 'i', 'r'].contains letter

/-! Folding a chain -/

namespace Grouping

/-- An operand of a pair that is a pair itself is bound as the grouping says. -/
theorem fits_expr {grouping : Grouping} {operator : BinaryOperator} {right : Bool}
    (atTop : ∀ inner ∈ grouping.top, operator.Allows right inner)
    (tight : ∀ operand ∈ grouping.operands, operator.precedence < operand.level) :
    operator.Fits right grouping.expr := by
  cases grouping with
  | operand expression => exact .inl (tight expression List.mem_cons_self)
  | pair left inner rightOperand => exact atTop inner rfl

/-- What holds of the operands of a grouping, and of two expressions joined as they may be, holds of
its expression. -/
theorem expr_induction {good : Expr → Prop} {grouping : Grouping} (bound : grouping.Bound)
    (operands : ∀ operand ∈ grouping.operands, good operand)
    (tight : ∀ operator ∈ grouping.operators, ∀ operand ∈ grouping.operands,
      operator.precedence < operand.level)
    (join : ∀ left right, ∀ operator ∈ grouping.operators, good left → good right →
      operator.Fits false left → operator.Fits true right → good (left.join operator right)) :
    good grouping.expr := by
  induction grouping with
  | operand expression => exact operands expression List.mem_cons_self
  | pair left operator right ihLeft ihRight =>
      obtain ⟨onLeft, onRight, boundLeft, boundRight⟩ := bound
      simp only [Grouping.operands, Grouping.operators, List.mem_append, List.mem_cons]
        at operands tight join
      rw [expr_pair]
      have own := tight operator (.inr (.inl rfl))
      refine join left.expr right.expr operator (.inr (.inl rfl)) ?_ ?_ ?_ ?_
      · exact ihLeft boundLeft (fun operand member => operands operand (.inl member))
          (fun inner member operand inside => tight inner (.inl member) operand (.inl inside))
          fun first second inner member => join first second inner (.inl member)
      · exact ihRight boundRight (fun operand member => operands operand (.inr member))
          (fun inner member operand inside =>
            tight inner (.inr (.inr member)) operand (.inr inside))
          fun first second inner member => join first second inner (.inr (.inr member))
      · exact fits_expr onLeft fun operand inside => own operand (.inl inside)
      · exact fits_expr onRight fun operand inside => own operand (.inr inside)

end Grouping

/-- What holds of the operands of a chain, and of two expressions joined as they may be, holds of
the tree of the chain. One level separates the operators from what the operands are bound by. -/
theorem Expr.foldOperators_induction {good : Expr → Prop} {level : Nat} {first : Expr}
    {rest : List (BinaryOperator × Expr)} (firstFits : level < first.level ∧ good first)
    (restFits : ∀ entry ∈ rest, entry.1.precedence ≤ level ∧ level < entry.2.level ∧ good entry.2)
    (join : ∀ left right, ∀ entry ∈ rest, good left → good right →
      entry.1.Fits false left → entry.1.Fits true right → good (left.join entry.1 right)) :
    good (first.foldOperators rest) := by
  obtain ⟨grouping, folded, operands, operators, bound⟩ :=
    Grouping.exists_foldFrom rest [] first trivial
  have operands : grouping.operands = first :: rest.map Prod.snd := operands
  have operators : grouping.operators = rest.map Prod.fst := operators
  have eachOperand : ∀ operand ∈ grouping.operands, level < operand.level ∧ good operand := by
    rw [operands]
    refine List.forall_mem_cons.mpr ⟨firstFits, List.forall_mem_map.mpr ?_⟩
    exact fun entry member => (restFits entry member).2
  have eachOperator : ∀ operator ∈ grouping.operators, ∃ entry ∈ rest, entry.1 = operator := by
    intro operator member
    exact List.mem_map.mp (operators ▸ member)
  have chain : first.foldOperators rest = grouping.expr := folded
  rw [chain]
  refine Grouping.expr_induction bound (fun operand inside => (eachOperand operand inside).2) ?_ ?_
  · intro operator member operand inside
    obtain ⟨entry, known, rfl⟩ := eachOperator operator member
    exact Nat.lt_of_le_of_lt (restFits entry known).1 (eachOperand operand inside).1
  · intro left right operator member
    obtain ⟨entry, known, rfl⟩ := eachOperator operator member
    exact join left right entry known

namespace Reader

variable {start : Cursor} {nested : Nested}

/-! Operands -/

theorem newExpression_whole :
    Gives start (newExpression nested) fun value _ => value.Whole := by
  unfold newExpression
  refine .pass fun _ => .pass fun _ => .pass fun _ => .orElse (.pass fun found => ?_) ?_
  · exact .pass fun _ => .give fun _ _ => Expr.whole_of_level rfl
  · exact .pass fun _ => .pass fun _ => .give fun _ _ => Expr.whole_of_level rfl

theorem nameOrLiteral_whole : Gives start nameOrLiteral fun value _ => value.Whole := by
  unfold nameOrLiteral
  refine .pass fun _ => .pass fun _ => .give fun _ _ => Expr.whole_of_level ?_
  split
  · rfl
  · split <;> rfl

theorem primary_whole : Gives start (primary nested) fun value _ => value.Whole := by
  unfold primary parenthesized closure arrowFunction matchExpression shortArray wordArray
    stringLiteral numberLiteral plainVariable variableVariable
  refine .orElse ?_ <| .orElse ?_ <| .orElse ?_ <| newExpression_whole.orElse <| .orElse ?_ <|
    .orElse ?_ <| .orElse ?_ <| .orElse ?_ <| .orElse ?_ <| .orElse ?_ <| .orElse ?_ <|
    .orElse ?_ nameOrLiteral_whole
  -- Each of the others ends with a node of its own.
  all_goals
    repeat refine .pass fun _ => ?_
    exact .give fun _ _ => Expr.whole_of_level rfl

theorem chain_whole : Gives start (chain nested) fun value _ => value.Whole := by
  refine primary_whole.next fun base whole => .pass fun steps => .give fun _ _ => ?_
  induction steps generalizing base with
  | nil => exact whole
  | cons step rest ih => exact ih _ (Expr.whole_of_level (Expr.level_access base step))

theorem unary_whole : Gives start (unary nested) fun value _ => value.Whole := by
  have leading : Gives start (leadingOperation nested) fun value _ => value.Whole :=
    .pass fun _ => .pass fun _ => .pass fun _ => .pass fun _ => .give fun _ _ =>
      Expr.whole_of_level rfl
  have word (rule : Reader UnaryOperator) :
      Gives start (wordOperation rule nested) fun value _ => value.Whole :=
    .pass fun _ => .pass fun _ => .pass fun _ => .pass fun _ => .give fun _ _ =>
      Expr.whole_of_level rfl
  have yielded : Gives start (yieldExpression nested) fun value _ => value.Whole := by
    unfold yieldExpression yieldFrom yieldValue
    refine .pass fun _ => .pass fun _ => .orElse ?_ <| .orElse (.pass fun _ => .pass fun _ => ?_) ?_
    · exact .pass fun _ => .pass fun _ => .pass fun _ => .pass fun _ => .give fun _ _ =>
        Expr.whole_of_level rfl
    · refine .orElse (.pass fun _ => .pass fun _ => .pass fun _ => ?_) (.pass fun _ => ?_)
      · exact .give fun _ _ => Expr.whole_of_level rfl
      · exact .give fun _ _ => Expr.whole_of_level rfl
    · exact .give fun _ _ => Expr.whole_of_level rfl
  have assigned : Gives start (chainOrAssignment nested) fun value _ => value.Whole := by
    unfold chainOrAssignment
    refine chain_whole.next fun target whole => .orElse ?_ (.give fun _ _ => whole)
    refine .pass fun _ => .pass fun _ => .pass fun _ => .pass fun _ => .pass fun _ => ?_
    exact .give fun _ _ => Expr.whole_of_level rfl
  have keyword : Gives start (keywordExpression nested) fun value _ => value.Whole :=
    (word _).orElse <| yielded.orElse <| (word _).orElse (word _)
  exact leading.orElse <| keyword.orElse assigned

/-! Operators -/

/-- One of some entries, or else what the last reader gives. -/
theorem Gives.choice {Entry Value : Type} {entries : List Entry}
    {choose : Entry → Reader Value → Reader Value} {last : Reader Value}
    {result : Value → Cursor → Prop}
    (each : ∀ entry ∈ entries, ∀ rest, Gives start rest result →
      Gives start (choose entry rest) result)
    (final : Gives start last result) : Gives start (entries.foldr choose last) result := by
  induction entries with
  | nil => exact final
  | cons entry rest ih =>
      exact each entry List.mem_cons_self _ (ih fun other member => each other (.tail _ member))

theorem binaryOperator_precedence :
    Gives start binaryOperator fun operator _ => 3 < operator.precedence := by
  have marks : ∀ entry ∈ binaryMarks, 3 < entry.2.2.precedence := by decide
  have word : Gives start instanceOfWord fun operator _ => 3 < operator.precedence := by
    have last : 3 < BinaryOperator.instanceOf.precedence := by decide
    unfold instanceOfWord
    refine .pass fun word => ?_
    split
    · exact .pass fun _ => .give fun _ _ => last
    · exact .give fun _ _ => last
  exact .choice (fun entry known rest others =>
    .orElse (.pass fun _ => .give fun _ _ => marks entry known) others) word

theorem lowOperator_precedence :
    Gives start lowOperator fun operator _ => operator.precedence ≤ 3 := by
  have words : ∀ entry ∈ lowOperators, entry.2.precedence ≤ 3 := by decide
  exact .choice (fun entry known rest others =>
    .orElse (.pass fun _ => .give fun _ _ => words entry known) others) .fail

/-- Operands of one kind with operators between them. What holds of the operands, and of two
expressions joined as they may be, holds of what the chain gives. -/
theorem operatorChain_gives {good : Expr → Prop} (level : Nat)
    (known : BinaryOperator → Prop) {first operand : Reader Expr} {operator : Reader BinaryOperator}
    (firstGood : Gives start first fun value _ => level < value.level ∧ good value)
    (operators : Gives start operator fun found _ => found.precedence ≤ level ∧ known found)
    (operandGood : Gives start operand fun value _ => level < value.level ∧ good value)
    (join : ∀ left right operator, known operator → good left → good right →
      operator.Fits false left → operator.Fits true right → good (left.join operator right))
    (limit : Nat) :
    Gives start (do
      let first ← first
      let rest ← many limit do
        skip
        let operator ← operator
        skip
        let operand ← operand
        return (operator, operand)
      return first.foldOperators rest) fun value _ => good value := by
  have step : Gives start (do
      skip
      let operator ← operator
      skip
      let operand ← operand
      return (operator, operand)) fun entry _ =>
        (entry.1.precedence ≤ level ∧ known entry.1) ∧ level < entry.2.level ∧ good entry.2 :=
    .pass fun _ => operators.next fun _ low => .pass fun _ => operandGood.next fun _ found =>
      .give fun _ _ => ⟨low, found⟩
  refine firstGood.next fun first firstFits => (step.each _).next fun rest restFits => ?_
  refine .give fun _ _ => Expr.foldOperators_induction firstFits ?_ ?_
  · intro entry member
    exact ⟨(restFits entry member).1.1, (restFits entry member).2⟩
  · intro left right entry member
    exact join left right entry.1 (restFits entry member).1.2

/-! Words before an operand -/

/-- The lower case of an `i` or an `r`, however it is written, begins with that letter. -/
theorem head?_lowerChar {letter character : Char} (initial : letter = 'i' ∨ letter = 'r')
    (folds : foldsTo letter character = true) : (lowerChar character).head? = some letter := by
  by_cases dotted : character = '\u0130'
  · subst dotted
    rcases initial with rfl | rfl
    · rfl
    · exact absurd folds (by decide)
  by_cases kelvin : character = '\u212a'
  · subst kelvin
    rcases initial with rfl | rfl <;> exact absurd folds (by decide)
  have others : letter ≠ 's' ∧ letter ≠ 'k' ∧ letter.toLower = letter := by
    rcases initial with rfl | rfl <;> decide
  simp only [foldsTo, Bool.or_eq_true, Bool.and_eq_true, beq_iff_eq, dotted, kelvin, others.1,
    and_false, false_and, or_false] at folds
  have lower : character.toLower = letter := by
    rcases folds with rfl | lower
    · exact others.2.2
    · exact lower
  simp [lowerChar, dotted, kelvin, lower]

theorem head?_lowerWord {letter : Char} {expected text : List Char} {length : Nat}
    (initial : letter = 'i' ∨ letter = 'r') (begins : expected.head? = some letter)
    (spelled : Lexeme.letters expected text = some length) :
    (lowerWord (String.ofList (text.take length))).toList.head? = some letter := by
  obtain ⟨more, rfl⟩ := List.head?_eq_some_iff.mp begins
  cases text with
  | nil => cases spelled
  | cons character rest =>
      simp only [Lexeme.letters] at spelled
      split at spelled
      · rename_i folds
        obtain ⟨size, -, rfl⟩ := Option.map_eq_some_iff.mp spelled
        have first := head?_lowerChar initial folds
        rw [lowerWord, String.toList_ofList, String.toList_ofList, List.take_succ_cons,
          List.flatMap_cons, List.head?_append, first]
        rfl
      · cases spelled

theorem loadOperator_isCommand :
    Gives start (do return UnaryOperator.load (lowerWord (← lexeme Lexeme.loadKeyword)))
      fun operator _ => operator.isCommand = true := by
  have initials : ∀ text ∈ ["include_once", "include", "require_once", "require"],
      text.toList.head? = some 'i' ∨ text.toList.head? = some 'r' := by decide
  have spelled : Gives start (lexeme Lexeme.loadKeyword) fun word _ =>
      (lowerWord word).toList.head? = some 'i' ∨ (lowerWord word).toList.head? = some 'r' := by
    intro cursor word later _ read
    simp only [lexeme] at read
    split at read
    · rename_i length taken
      cases read
      obtain ⟨rule, member, found⟩ := List.exists_of_findSome?_eq_some taken
      obtain ⟨text, known, rfl⟩ := List.mem_map.mp member
      have letters : Lexeme.letters text.toList cursor.rest = some length := by
        simp only [Lexeme.keyword, Lexeme.before] at found
        split at found
        · rename_i size spelled
          split at found
          · cases found
            exact spelled
          · cases found
        · cases found
      rcases initials text known with first | first
      · exact .inl (head?_lowerWord (.inl rfl) first letters)
      · exact .inr (head?_lowerWord (.inr rfl) first letters)
    · cases read
  refine spelled.next fun word initial => .give fun _ _ => ?_
  rcases initial with initial | initial <;>
    simp [UnaryOperator.isCommand, UnaryOperator.symbol, initial]

/-! Operands of operators -/

theorem binary_level (operand : Gives start nested.unary fun value _ => value.Whole) :
    Gives start (binary nested) fun value _ => 3 < value.level := by
  have wholes : ∀ value : Expr, value.Whole → 21 < value.level ∧ 3 < value.level := by
    intro value whole
    exact ⟨whole .power, whole .logicalAnd⟩
  refine operatorChain_gives 21 (fun operator => 3 < operator.precedence)
    (unary_whole.weaken fun value _ _ => wholes value) ?_
    (operand.weaken fun value _ _ => wholes value) (fun _ _ _ above _ _ _ _ => above) _
  exact binaryOperator_precedence.weaken fun operator _ _ above => ⟨operator.precedence_le, above⟩

theorem ternary_level (operand : Gives start nested.unary fun value _ => value.Whole) :
    Gives start (ternary nested) fun value _ => 3 < value.level := by
  refine (binary_level operand).next fun condition tight => .pass fun tails => .give fun _ _ => ?_
  induction tails generalizing condition with
  | nil => exact tight
  | cons tail rest ih => exact ih _ (by change 3 < 6; decide)

/-- An operator with its operand is the first operand of the chain that it stands at the start of. -/
theorem binary_at_leadingOperation {cursor middle later : Cursor} {leading value : Expr}
    (leads : (leadingOperation nested).run cursor = some (leading, middle))
    (read : (binary nested).run cursor = some (value, later)) :
    (∃ operator operand, leading = .unary cursor.span operator operand false) ∧
      ∃ rest, value = leading.foldOperators rest := by
  refine ⟨?_, ?_⟩
  · unfold leadingOperation at leads
    obtain ⟨span, place, here, leads⟩ := run_bind leads
    cases here
    obtain ⟨operator, _, _, leads⟩ := run_bind leads
    obtain ⟨_, _, _, leads⟩ := run_bind leads
    obtain ⟨operand, _, _, leads⟩ := run_bind leads
    cases leads
    exact ⟨operator, operand, rfl⟩
  · have first : (unary nested).run cursor = some (leading, middle) := run_orElse_of_some leads
    unfold binary at read
    obtain ⟨found, _, step, onward⟩ := run_bind read
    rw [first] at step
    cases step
    obtain ⟨rest, _, _, folded⟩ := run_bind onward
    cases folded
    exact ⟨rest, rfl⟩

end Reader

end PhpAudit
