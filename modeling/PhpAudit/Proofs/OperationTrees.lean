import PhpAudit.Proofs.BareOutlines
import PhpAudit.Proofs.SitedStatements

/-!
Operations in the tree of a text. A call belongs to the access to a member before it, so that none is
left with such an access as its target. A sign before an operand applies to that operand alone: it
binds tighter than every operator between two operands, powers and type tests included.
-/

namespace PhpAudit

open Outline

/-! What an outline tells of an expression -/

namespace Expr

theorem label_eq_of_outline {first second : Expr} (same : first.outline = second.outline) :
    first.label = second.label :=
  label_eq_of_bare (congrArg Outline.bare same)

theorem isFetch_eq_of_outline {first second : Expr} (same : first.outline = second.outline) :
    first.isFetch = second.isFetch := by
  rw [isFetch_eq, isFetch_eq, label_eq_of_outline same]

theorem exists_binary {expression : Expr} (joined : expression.label = "Binary") :
    ∃ span left operator right, expression = .binary span left operator right := by
  cases expression with
  | binary span left operator right => exact ⟨span, left, operator, right, rfl⟩
  | _ => simp [label] at joined

theorem level_of_label {expression : Expr} (other : expression.label ≠ "Binary") :
    expression.level = if expression.label = "Ternary" then 6 else 22 := by
  cases expression with
  | binary => exact absurd rfl other
  | _ => rfl

end Expr

/-- The binary operators by what is written for them. -/
def BinaryOperator.written : List (String × BinaryOperator) :=
  Reader.binaryMarks.map (fun entry => (entry.1, entry.2.2)) ++
    ("instanceof", .instanceOf) :: Reader.lowOperators

theorem BinaryOperator.lookup_symbol (operator : BinaryOperator) :
    written.lookup operator.symbol = some operator := by
  cases operator <;> rfl

theorem BinaryOperator.symbol_injective {first second : BinaryOperator}
    (same : first.symbol = second.symbol) : first = second := by
  have found := lookup_symbol first
  rw [same, lookup_symbol second] at found
  exact (Option.some.inj found).symm

theorem Expr.level_eq_of_outline {first second : Expr} (same : first.outline = second.outline) :
    first.level = second.level := by
  have label := label_eq_of_outline same
  by_cases joined : first.label = "Binary"
  · obtain ⟨span, left, operator, right, rfl⟩ := exists_binary joined
    obtain ⟨place, before, other, behind, rfl⟩ := exists_binary (label ▸ joined)
    simp only [outline, Outline.node.injEq, List.cons.injEq, Prod.mk.injEq,
      Outline.text.injEq] at same
    obtain ⟨_, _, _, ⟨_, symbol⟩, _⟩ := same
    rw [BinaryOperator.symbol_injective symbol]
    rfl
  · rw [level_of_label joined, level_of_label (label ▸ joined), label]

theorem Expr.Whole.of_outline_eq {first second : Expr} (whole : first.Whole)
    (same : first.outline = second.outline) : second.Whole := by
  intro operator
  rw [← level_eq_of_outline same]
  exact whole operator

theorem BinaryOperator.Fits.of_outline_eq {operator : BinaryOperator} {right : Bool}
    {first second : Expr} (fits : operator.Fits right first)
    (same : first.outline = second.outline) : operator.Fits right second := by
  rw [Fits, ← Expr.level_eq_of_outline same]
  exact fits

/-! Calls -/

/-- The tree of a chain has its steps from the inside outwards, each of them once, at the place of
the expression the chain begins with. The steps are divided into stages that make a node each: one
step, or the selection of a member with the arguments directly behind it. So the tree has as many
calls as the chain has lists of arguments, and no call in the tree of a text has an access to a
member as its target. -/
theorem calls_merge_with_members :
    (∀ (primary : Expr) (steps : List Access), primary.isFetch = false →
      ∃ stages : List Stage, stages.flatMap Stage.steps = steps ∧ Stage.Separated stages ∧
        primary.accessAll steps = Stage.build primary.span primary stages ∧
        ∃ nodes : List Expr, (primary.accessAll steps).spine = primary.spine ++ nodes ∧
          nodes.flatMap Expr.operations = steps.map Access.operation ∧
          (∀ node ∈ nodes, node.span = primary.span) ∧
          nodes.countP Expr.isCall = steps.countP Access.isCall) ∧
    ∀ (text : String) (statements : List Stmt), parse text = .ok statements →
      ∀ statement ∈ statements, ∀ span target arguments,
        Occurs (Expr.call span target arguments).outline statement.outline →
          target.isFetch = false := by
  refine ⟨?chain, ?text⟩
  case chain =>
    intro primary steps plain
    have whole := Stage.flatMap_steps_ofSteps steps
    have tree := (Stage.folds steps).plain primary plain
    refine ⟨Stage.ofSteps steps, whole, Stage.separated_ofSteps steps, tree,
      Stage.nodes primary.span primary (Stage.ofSteps steps), ?_, ?_, ?_, ?_⟩
    · rw [tree, Stage.spine_build]
    · rw [Stage.flatMap_operations_nodes, whole]
    · exact fun node => Stage.span_of_mem_nodes primary.span primary
    · rw [Stage.countP_isCall_nodes, whole]
  case text =>
    intro text statements parsed statement member span target arguments occurs
    have node := parse_sited parsed statement member "FunctionCall" span _ occurs
    obtain ⟨called, values, fields, apart⟩ := node.operation CallApart rfl
    simp only [List.cons.injEq, Prod.mk.injEq] at fields
    rw [Expr.isFetch_eq_of_outline fields.1.2, apart]

/-- Only the first list of arguments belongs to a member. -/
theorem calls_merge_with_members_twice :
    ((Expr.var {} "$a").accessAll [.member "b", .call [], .call [], .classConstant "c",
      .element none]).spine.flatMap Expr.operations =
      [.arrow "b", .arguments [], .arguments [], .doubleColon "c", .brackets none] ∧
    parse "<?php $a->b()();" = .ok [.openingTag {} "<?php", .expression ⟨1, 7, 6⟩
      (.call ⟨1, 7, 6⟩ (.methodCall ⟨1, 7, 6⟩ (.var ⟨1, 7, 6⟩ "$a") "b" []) [])] ∧
    (Expr.methodCall ⟨1, 7, 6⟩ (.var ⟨1, 7, 6⟩ "$a") "b" []).isFetch = false := by
  have parsed : parse "<?php $a->b()();" = .ok [.openingTag {} "<?php", .expression ⟨1, 7, 6⟩
      (.call ⟨1, 7, 6⟩ (.methodCall ⟨1, 7, 6⟩ (.var ⟨1, 7, 6⟩ "$a") "b" []) [])] := rfl
  obtain ⟨chain, text⟩ := calls_merge_with_members
  obtain ⟨_, _, _, _, nodes, spine, operations, _⟩ := chain (.var {} "$a")
    [.member "b", .call [], .call [], .classConstant "c", .element none] rfl
  refine ⟨?_, parsed, ?_⟩
  · rw [spine]
    exact operations
  · exact text _ _ parsed _ (List.mem_cons_of_mem _ List.mem_cons_self) _ _ _
      (.field List.mem_cons_self .here)

/-! Operators -/

/-- An operator before its operand, unless it is one of the words that take a whole expression, does
not take what an operator between two operands joins, and the operands of such an operator are those
that its precedence and associativity allow. So the left operand of a power is what stands directly
before it, with its signs and casts. An operator with its operand is the first operand of the chain
that it stands at the start of. -/
theorem parse_signs_bind_tightest {text : String} {statements : List Stmt}
    (parsed : parse text = .ok statements) :
    (∀ statement ∈ statements,
      (∀ span operator operand,
        Occurs (Expr.unary span operator operand false).outline statement.outline →
          operator.isCommand = false → operand.Whole) ∧
      ∀ span left operator right,
        Occurs (Expr.binary span left operator right).outline statement.outline →
          operator.Fits false left ∧ operator.Fits true right ∧
            (operator = .power → left.Whole)) ∧
    ∀ cursor leading middle value later,
      (Reader.leadingOperation (Nested.ofText text.toList)).run cursor = some (leading, middle) →
      (Reader.binary (Nested.ofText text.toList)).run cursor = some (value, later) →
        (∃ operator operand, leading = .unary cursor.span operator operand false) ∧
          ∃ rest, value = leading.foldOperators rest := by
  refine ⟨fun statement member => ⟨?sign, ?pair⟩, ?chain⟩
  case sign =>
    intro span operator operand occurs other
    have node := parse_sited parsed statement member "Unary" span _ occurs
    obtain ⟨found, inner, trailing, fields, whole⟩ := node.operation OperandClose rfl
    simp only [List.cons.injEq, Prod.mk.injEq, Outline.text.injEq, Outline.flag.injEq] at fields
    obtain ⟨⟨_, symbol⟩, ⟨_, same⟩, ⟨_, rfl⟩, _⟩ := fields
    have foundOther : found.isCommand = false := by
      rw [UnaryOperator.isCommand, ← symbol]
      exact other
    exact (whole rfl foundOther).of_outline_eq same.symm
  case pair =>
    intro span left operator right occurs
    have node := parse_sited parsed statement member "Binary" span _ occurs
    obtain ⟨before, found, behind, fields, onLeft, onRight⟩ := node.operation PairFits rfl
    simp only [List.cons.injEq, Prod.mk.injEq, Outline.text.injEq] at fields
    obtain ⟨⟨_, leftSame⟩, ⟨_, symbol⟩, ⟨_, rightSame⟩, _⟩ := fields
    obtain rfl := BinaryOperator.symbol_injective symbol
    have leftFits := onLeft.of_outline_eq leftSame.symm
    refine ⟨leftFits, onRight.of_outline_eq rightSame.symm, ?_⟩
    rintro rfl
    exact leftFits.whole_of_power
  case chain => exact fun _ _ _ _ _ => Reader.binary_at_leadingOperation

/-- The negation and the sign belong to the variable, and not to the type test and the power. -/
theorem parse_signs_bind_tightest_test_power :
    parse "<?php !$a instanceof B; -$a ** 2;" = .ok [.openingTag {} "<?php",
      .expression ⟨1, 7, 6⟩ (.binary ⟨1, 7, 6⟩ (.unary ⟨1, 7, 6⟩ .not (.var ⟨1, 8, 7⟩ "$a") false)
        .instanceOf (.name ⟨1, 22, 21⟩ "B")),
      .expression ⟨1, 25, 24⟩ (.binary ⟨1, 25, 24⟩
        (.unary ⟨1, 25, 24⟩ .minus (.var ⟨1, 26, 25⟩ "$a") false) .power
        (.literal ⟨1, 32, 31⟩ .int "2"))] ∧
    (Expr.var ⟨1, 8, 7⟩ "$a").Whole ∧
    (Expr.unary ⟨1, 25, 24⟩ .minus (.var ⟨1, 26, 25⟩ "$a") false).Whole := by
  have parsed : parse "<?php !$a instanceof B; -$a ** 2;" = .ok [.openingTag {} "<?php",
      .expression ⟨1, 7, 6⟩ (.binary ⟨1, 7, 6⟩ (.unary ⟨1, 7, 6⟩ .not (.var ⟨1, 8, 7⟩ "$a") false)
        .instanceOf (.name ⟨1, 22, 21⟩ "B")),
      .expression ⟨1, 25, 24⟩ (.binary ⟨1, 25, 24⟩
        (.unary ⟨1, 25, 24⟩ .minus (.var ⟨1, 26, 25⟩ "$a") false) .power
        (.literal ⟨1, 32, 31⟩ .int "2"))] := rfl
  obtain ⟨each, _⟩ := parse_signs_bind_tightest parsed
  refine ⟨parsed, ?_, ?_⟩
  · exact (each _ (.tail _ (.head _))).1 ⟨1, 7, 6⟩ .not _
      (.field List.mem_cons_self (.field List.mem_cons_self .here)) rfl
  · exact ((each _ (.tail _ (.tail _ (.head _)))).2 ⟨1, 25, 24⟩ _ _ _
      (.field List.mem_cons_self .here)).2.2 rfl

end PhpAudit
