import PhpAudit.Tree.Fold

/-!
Folding a chain of operands by precedence. A grouping says which operands and operators of a chain
belong together. Precedence and associativity allow one grouping of a chain and no other, and the
fold with its waiting operands arrives at that one.
-/

namespace PhpAudit

namespace BinaryOperator

/-- Whether `inner` may stand at the top of an operand of `operator`, which is the right one or the
left one: it binds tighter, or just as tight and the operator associates to that side. -/
def Allows (operator : BinaryOperator) (right : Bool) (inner : BinaryOperator) : Prop :=
  operator.precedence < inner.precedence ∨
    (inner.precedence = operator.precedence ∧ operator.rightAssociative = right)

theorem Allows.le {operator inner : BinaryOperator} {right : Bool}
    (allowed : operator.Allows right inner) : operator.precedence ≤ inner.precedence := by
  rcases allowed with tighter | ⟨level, -⟩ <;> omega

theorem Allows.mono {operator middle inner : BinaryOperator} {right : Bool}
    (allowed : operator.Allows right middle) (above : middle.precedence ≤ inner.precedence) :
    operator.Allows right inner := by
  rcases allowed with tighter | ⟨level, side⟩
  · exact .inl (by omega)
  · rcases Nat.lt_or_ge operator.precedence inner.precedence with tighter | low
    · exact .inl tighter
    · exact .inr ⟨by omega, side⟩

/-- The operators of one precedence associate to the same side. -/
theorem rightAssociative_of_precedence_eq {first second : BinaryOperator}
    (level : first.precedence = second.precedence) :
    first.rightAssociative = second.rightAssociative := by
  have known : ∀ operator : BinaryOperator,
      operator.rightAssociative = (operator.precedence == 7 || operator.precedence == 21) := by
    intro operator
    cases operator <;> rfl
  rw [known, known, level]

/-- Two operators of a chain cannot each have the other one in its operand. -/
theorem Allows.not_both {first second : BinaryOperator} (behind : first.Allows true second)
    (ahead : second.Allows false first) : False := by
  have level : first.precedence = second.precedence := Nat.le_antisymm behind.le ahead.le
  have side := rightAssociative_of_precedence_eq level
  rcases behind with tighter | ⟨-, toTheRight⟩
  · omega
  rcases ahead with tighter | ⟨-, toTheLeft⟩
  · omega
  rw [toTheRight, toTheLeft] at side
  cases side

theorem allows_of_bindsBefore {waiting next : BinaryOperator}
    (binds : waiting.bindsBefore next = true) : next.Allows false waiting := by
  simpa [bindsBefore, Allows] using binds

theorem allows_of_not_bindsBefore {waiting next : BinaryOperator}
    (waits : waiting.bindsBefore next = false) : waiting.Allows true next := by
  simp only [bindsBefore, Bool.or_eq_false_iff, decide_eq_false_iff_not, Bool.and_eq_false_iff,
    beq_eq_false_iff_ne, Bool.not_eq_false'] at waits
  obtain ⟨notLooser, differs | toTheRight⟩ := waits
  · exact .inl (by omega)
  · rcases Nat.lt_or_ge waiting.precedence next.precedence with tighter | low
    · exact .inl tighter
    · have level : next.precedence = waiting.precedence := by omega
      exact .inr ⟨level, rightAssociative_of_precedence_eq level ▸ toTheRight⟩

end BinaryOperator

/-- The operands of a chain put together in pairs. An operand is left as it is, even if it is a
binary expression itself. -/
inductive Grouping where
  | operand (expression : Expr)
  | pair (left : Grouping) (operator : BinaryOperator) (right : Grouping)

namespace Grouping

def operands : Grouping → List Expr
  | operand expression => [expression]
  | pair left _ right => left.operands ++ right.operands

def operators : Grouping → List BinaryOperator
  | operand _ => []
  | pair left operator right => left.operators ++ operator :: right.operators

def leftmost : Grouping → Expr
  | operand expression => expression
  | pair left _ _ => left.leftmost

/-- The expression of a grouping. Every pair has the place of its leftmost operand. -/
def expr : Grouping → Expr
  | operand expression => expression
  | pair left operator right => .binary left.leftmost.span left.expr operator right.expr

/-- The operator that joins the whole, if there is one. -/
def top : Grouping → Option BinaryOperator
  | operand _ => none
  | pair _ operator _ => some operator

/-- Every operator allows the operators at the top of its two operands. -/
def Bound : Grouping → Prop
  | operand _ => True
  | pair left operator right =>
      (∀ inner ∈ left.top, operator.Allows false inner) ∧
        (∀ inner ∈ right.top, operator.Allows true inner) ∧ left.Bound ∧ right.Bound

theorem length_operands (grouping : Grouping) :
    grouping.operands.length = grouping.operators.length + 1 := by
  induction grouping with
  | operand expression => rfl
  | pair left operator right ihLeft ihRight =>
      simp only [operands, operators, List.length_append, List.length_cons]
      omega

/-! A chain has at most one grouping -/

/-- What an operator asks of the top of an operand holds of every operator in it. -/
theorem Bound.allows_of_mem {grouping : Grouping} (bound : grouping.Bound)
    {operator inner : BinaryOperator} {right : Bool}
    (atTop : ∀ root ∈ grouping.top, operator.Allows right root)
    (member : inner ∈ grouping.operators) : operator.Allows right inner := by
  induction grouping generalizing operator right with
  | operand expression => cases member
  | pair left middle rightOperand ihLeft ihRight =>
      obtain ⟨onLeft, onRight, boundLeft, boundRight⟩ := bound
      have here := atTop middle rfl
      rcases List.mem_append.mp member with inLeft | later
      · exact here.mono (ihLeft boundLeft onLeft inLeft).le
      · rcases List.mem_cons.mp later with rfl | inRight
        · exact here
        · exact here.mono (ihRight boundRight onRight inRight).le

/-- Two groupings of one chain cannot be joined by different operators of it. -/
theorem Bound.not_apart {left right left' right' : Grouping} {operator operator' : BinaryOperator}
    (bound : (pair left operator right).Bound) (bound' : (pair left' operator' right').Bound)
    {between : List BinaryOperator}
    (longer : left'.operators = left.operators ++ operator :: between)
    (shorter : right.operators = between ++ operator' :: right'.operators) : False := by
  obtain ⟨-, onRight, -, boundRight⟩ := bound
  obtain ⟨onLeft, -, boundLeft, -⟩ := bound'
  have behind : operator.Allows true operator' :=
    boundRight.allows_of_mem onRight (by rw [shorter]; simp)
  have ahead : operator'.Allows false operator :=
    boundLeft.allows_of_mem onLeft (by rw [longer]; simp)
  exact behind.not_both ahead

theorem Bound.unique {first second : Grouping} (boundFirst : first.Bound)
    (boundSecond : second.Bound) (operators : first.operators = second.operators)
    (operands : first.operands = second.operands) : first = second := by
  induction first generalizing second with
  | operand expression =>
      cases second with
      | operand other => rw [List.singleton_inj.mp operands]
      | pair _ _ _ => simp [Grouping.operators] at operators
  | pair left operator right ihLeft ihRight =>
      cases second with
      | operand other => simp [Grouping.operators] at operators
      | pair left' operator' right' =>
          have split : left.operators = left'.operators ∧
              operator :: right.operators = operator' :: right'.operators := by
            rcases List.append_eq_append_iff.mp operators with
              ⟨between, longer, shorter⟩ | ⟨between, longer, shorter⟩
            · cases between with
              | nil => exact ⟨by simpa using longer.symm, by simpa using shorter⟩
              | cons found between =>
                  obtain ⟨rfl, rest⟩ := List.cons_eq_cons.mp shorter
                  exact (boundFirst.not_apart boundSecond longer rest).elim
            · cases between with
              | nil => exact ⟨by simpa using longer, by simpa using shorter.symm⟩
              | cons found between =>
                  obtain ⟨rfl, rest⟩ := List.cons_eq_cons.mp shorter
                  exact (boundSecond.not_apart boundFirst longer rest).elim
          obtain ⟨sameLeft, sameRest⟩ := split
          obtain ⟨rfl, sameRight⟩ := List.cons_eq_cons.mp sameRest
          have lengths : left.operands.length = left'.operands.length := by
            rw [length_operands, length_operands, sameLeft]
          obtain ⟨operandsLeft, operandsRight⟩ := List.append_inj operands lengths
          obtain ⟨-, -, boundLeft, boundRight⟩ := boundFirst
          obtain ⟨-, -, boundLeft', boundRight'⟩ := boundSecond
          rw [ihLeft boundLeft boundLeft' sameLeft operandsLeft,
            ihRight boundRight boundRight' sameRight operandsRight]

/-! The fold finds it -/

/-- The grouping in which all waiting operands are joined. -/
def close (waiting : List (Grouping × BinaryOperator)) (current : Grouping) : Grouping :=
  waiting.foldl (fun right (left, operator) => pair left operator right) current

/-- The waiting operands as the fold keeps them. -/
def written (waiting : List (Grouping × BinaryOperator)) : List (Expr × BinaryOperator) :=
  waiting.map fun (left, operator) => (left.expr, operator)

theorem expr_pair (left : Grouping) (operator : BinaryOperator) (right : Grouping) :
    (pair left operator right).expr = left.expr.join operator right.expr := by
  have place : left.expr.span = left.leftmost.span := by cases left <;> rfl
  rw [Expr.join, place]
  rfl

theorem expr_close (waiting : List (Grouping × BinaryOperator)) (current : Grouping) :
    (close waiting current).expr = Expr.close (written waiting) current.expr := by
  induction waiting generalizing current with
  | nil => rfl
  | cons entry waiting ih =>
      have joined := ih (pair entry.1 entry.2 current)
      rw [expr_pair] at joined
      exact joined

/-- Settling joins only what would be joined at the end anyway; the operand it leaves may stand
before the next operator, and that operator behind the one that still waits. -/
theorem exists_settle (next : BinaryOperator) (waiting : List (Grouping × BinaryOperator))
    (current : Grouping) (ready : ∀ inner ∈ current.top, next.Allows false inner) :
    ∃ waiting' current', Expr.settle next (written waiting) current.expr =
        (written waiting', current'.expr) ∧
      close waiting' current' = close waiting current ∧
      (∀ inner ∈ current'.top, next.Allows false inner) ∧
      ∀ entry ∈ waiting'.head?, entry.2.Allows true next := by
  induction waiting generalizing current with
  | nil => exact ⟨[], current, rfl, rfl, ready, by simp⟩
  | cons entry waiting ih =>
      obtain ⟨left, operator⟩ := entry
      cases binds : operator.bindsBefore next with
      | false =>
          refine ⟨(left, operator) :: waiting, current, ?_, rfl, ready, ?_⟩
          · simp [written, Expr.settle, binds]
          · rintro _ ⟨⟩
            exact BinaryOperator.allows_of_not_bindsBefore binds
      | true =>
          have joined : ∀ inner ∈ (pair left operator current).top, next.Allows false inner := by
            rintro _ ⟨⟩
            exact BinaryOperator.allows_of_bindsBefore binds
          obtain ⟨waiting', current', settled, same, rest⟩ := ih _ joined
          refine ⟨waiting', current', ?_, same, rest⟩
          rw [← settled, expr_pair]
          simp [written, Expr.settle, binds]

theorem Bound.of_close {waiting : List (Grouping × BinaryOperator)} {current : Grouping}
    (bound : (close waiting current).Bound) :
    current.Bound ∧ ∀ entry ∈ waiting.head?, ∀ inner ∈ current.top, entry.2.Allows true inner := by
  induction waiting generalizing current with
  | nil => exact ⟨bound, by simp⟩
  | cons entry waiting ih =>
      have joined : (close waiting (pair entry.1 entry.2 current)).Bound := bound
      obtain ⟨-, onRight, -, boundRight⟩ := (ih joined).1
      refine ⟨boundRight, ?_⟩
      rintro _ ⟨⟩
      exact onRight

/-- The operand behind the waiting ones can be replaced by one that fits there as well. -/
theorem Bound.replace {waiting : List (Grouping × BinaryOperator)} {current next : Grouping}
    (bound : (close waiting current).Bound) (boundNext : next.Bound)
    (fits : ∀ entry ∈ waiting.head?, ∀ inner ∈ next.top, entry.2.Allows true inner) :
    (close waiting next).Bound := by
  induction waiting generalizing current next with
  | nil => exact boundNext
  | cons entry waiting ih =>
      have joined : (close waiting (pair entry.1 entry.2 current)).Bound := bound
      obtain ⟨⟨onLeft, -, boundLeft, -⟩, below⟩ := joined.of_close
      exact ih joined ⟨onLeft, fits entry rfl, boundLeft, boundNext⟩ below

theorem operands_close {current next : Grouping} {more : List Expr}
    (longer : next.operands = current.operands ++ more)
    (waiting : List (Grouping × BinaryOperator)) :
    (close waiting next).operands = (close waiting current).operands ++ more := by
  induction waiting generalizing current next with
  | nil => exact longer
  | cons entry waiting ih =>
      apply ih
      simp only [operands, longer, List.append_assoc]

theorem operators_close {current next : Grouping} {more : List BinaryOperator}
    (longer : next.operators = current.operators ++ more)
    (waiting : List (Grouping × BinaryOperator)) :
    (close waiting next).operators = (close waiting current).operators ++ more := by
  induction waiting generalizing current next with
  | nil => exact longer
  | cons entry waiting ih =>
      apply ih
      simp only [operators, longer, List.append_assoc, List.cons_append]

/-- The fold keeps the waiting operands such that joining them all would be a grouping of what has
been read so far, with every operator bound as it has to be. -/
theorem exists_foldFrom (rest : List (BinaryOperator × Expr))
    (waiting : List (Grouping × BinaryOperator)) (expression : Expr)
    (bound : (close waiting (operand expression)).Bound) :
    ∃ grouping : Grouping, Expr.foldFrom (written waiting) expression rest = grouping.expr ∧
      grouping.operands = (close waiting (operand expression)).operands ++ rest.map Prod.snd ∧
      grouping.operators = (close waiting (operand expression)).operators ++ rest.map Prod.fst ∧
      grouping.Bound := by
  induction rest generalizing waiting expression with
  | nil =>
      refine ⟨close waiting (operand expression), ?_, by simp, by simp, bound⟩
      exact (expr_close waiting (operand expression)).symm
  | cons step rest ih =>
      obtain ⟨operator, next⟩ := step
      obtain ⟨waiting', current, joins, same, ahead, behind⟩ :=
        exists_settle operator waiting (operand expression) (by simp [top])
      rw [← same] at bound ⊢
      have grown : (close ((current, operator) :: waiting') (operand next)).Bound := by
        refine bound.replace ⟨ahead, by simp [top], bound.of_close.1, trivial⟩ ?_
        rintro entry waits _ ⟨⟩
        exact behind entry waits
      obtain ⟨grouping, folded, sameOperands, sameOperators, allBound⟩ := ih _ _ grown
      have operandsRead : (close ((current, operator) :: waiting') (operand next)).operands =
          (close waiting' current).operands ++ [next] := operands_close rfl waiting'
      have operatorsRead : (close ((current, operator) :: waiting') (operand next)).operators =
          (close waiting' current).operators ++ [operator] := operators_close rfl waiting'
      refine ⟨grouping, ?_, ?_, ?_, allBound⟩
      · have settled : Expr.settle operator (written waiting) expression =
            (written waiting', current.expr) := joins
        rw [← folded, Expr.foldFrom, settled]
        rfl
      · rw [sameOperands, operandsRead, List.append_assoc, List.singleton_append, List.map_cons]
      · rw [sameOperators, operatorsRead, List.append_assoc, List.singleton_append, List.map_cons]

end Grouping

/-- Folding a chain gives the one grouping of its operands and operators, read from left to right,
in which every operator allows those at the top of its operands. -/
theorem Expr.foldOperators_only_grouping (first : Expr) (rest : List (BinaryOperator × Expr)) :
    ∃ grouping : Grouping, foldOperators first rest = grouping.expr ∧
      grouping.operands = first :: rest.map Prod.snd ∧
      grouping.operators = rest.map Prod.fst ∧ grouping.Bound ∧
      ∀ other : Grouping, other.operands = first :: rest.map Prod.snd →
        other.operators = rest.map Prod.fst → other.Bound → other = grouping := by
  obtain ⟨grouping, folded, operands, operators, bound⟩ :=
    Grouping.exists_foldFrom rest [] first trivial
  refine ⟨grouping, folded, operands, operators, bound, ?_⟩
  intro other sameOperands sameOperators otherBound
  exact otherBound.unique bound (sameOperators.trans operators.symm)
    (sameOperands.trans operands.symm)

end PhpAudit
