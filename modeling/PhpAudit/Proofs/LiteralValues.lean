import PhpAudit.Proofs.Traversal

/-!
Literal values. The test for them goes down through arrays, their keys and their values. It accepts
an expression exactly if every node of the walk is a literal, an array with plain items, or a number
with a sign before it; so nothing in a literal value has to be looked up or run.
-/

namespace PhpAudit

namespace Expr

/-- The nodes that literal values are made of. -/
inductive LiteralNode : Expr → Prop
  | literal {span : Span} {kind : LiteralKind} {raw : String} :
      LiteralNode (.literal span kind raw)
  | array {span : Span} {items : List (ArrayItem Expr)} {form : ArrayForm}
      (written : form ≠ .list) (plain : ∀ item ∈ items, item.unpack = false) :
      LiteralNode (.array span items form)
  | signed {span operandSpan : Span} {operator : UnaryOperator} {kind : LiteralKind}
      {raw : String} {trailing : Bool} (sign : operator = .plus ∨ operator = .minus)
      (number : kind = .int ∨ kind = .float) :
      LiteralNode (.unary span operator (.literal operandSpan kind raw) trailing)

/-- An expression at any depth of nested arrays, among the keys or the values. -/
inductive HeldBy (inner : Expr) : Expr → Prop
  | self : HeldBy inner inner
  | key {span : Span} {items : List (ArrayItem Expr)} {form : ArrayForm}
      {item : ArrayItem Expr} {key : Expr} (member : item ∈ items) (keyed : item.key = some key)
      (held : HeldBy inner key) : HeldBy inner (.array span items form)
  | value {span : Span} {items : List (ArrayItem Expr)} {form : ArrayForm}
      {item : ArrayItem Expr} (member : item ∈ items) (held : HeldBy inner item.value) :
      HeldBy inner (.array span items form)

/-- Variables, calls, assignments and names of constants. -/
def isEvaluated : Expr → Bool
  | var _ _ | indirect _ _ => true
  | call _ _ _ | methodCall _ _ _ _ | nullsafeMethodCall _ _ _ _ => true
  | staticMethodCall _ _ _ _ | new _ _ _ => true
  | assignment _ _ _ _ _ => true
  | name _ _ | classConstant _ _ _ => true
  | _ => false

/-- What asks something of a node and itself of its direct parts asks it of every node of a walk. -/
theorem iff_forall_mem_walk {holds asked : Expr → Prop}
    (step : ∀ expression, holds expression ↔
      asked expression ∧ ∀ inner ∈ expression.subexpressions, holds inner)
    (expression : Expr) : holds expression ↔ ∀ node ∈ expression.walk, asked node := by
  induction expression using induction_on_parts with
  | step expression ih =>
      rw [step, walk_eq, List.forall_mem_cons, List.forall_mem_flatMap]
      exact and_congr_right fun _ => forall₂_congr ih

theorem isNumber_iff {operand : Expr} :
    operand.isNumber = true ↔
      ∃ span kind raw, operand = .literal span kind raw ∧ (kind = .int ∨ kind = .float) := by
  constructor
  · intro number
    cases operand with
    | literal span kind raw =>
        refine ⟨span, kind, raw, rfl, ?_⟩
        cases kind with
        | int => exact Or.inl rfl
        | float => exact Or.inr rfl
        | _ => cases number
    | _ => cases number
  · rintro ⟨span, kind, raw, rfl, rfl | rfl⟩ <;> rfl

theorem isLiteralItem_iff {item : ArrayItem Expr} :
    isLiteralItem item = true ↔
      item.unpack = false ∧ ∀ inner ∈ item.key.toList ++ [item.value], inner.isLiteral = true := by
  obtain ⟨span, _ | key, value, byRef, unpack⟩ := item
  · simp [isLiteralItem, isLiteralKey]
  · simp [isLiteralItem, isLiteralKey, and_assoc, and_comm]

theorem areLiterals_iff {items : List (ArrayItem Expr)} :
    areLiterals items = true ↔
      (∀ item ∈ items, item.unpack = false) ∧
        ∀ inner ∈ items.flatMap fun item => item.key.toList ++ [item.value],
          inner.isLiteral = true := by
  induction items with
  | nil => simp [areLiterals]
  | cons item rest ih =>
      rw [areLiterals, Bool.and_eq_true, ih, List.forall_mem_cons, List.flatMap_cons,
        List.forall_mem_append, isLiteralItem_iff]
      exact and_and_and_comm

theorem isLiteral_unary_iff {span : Span} {operator : UnaryOperator} {operand : Expr}
    {trailing : Bool} :
    (unary span operator operand trailing).isLiteral = true ↔
      (operator = .plus ∨ operator = .minus) ∧ operand.isNumber = true := by
  cases operator <;> simp [isLiteral]

/-- The test asks one thing of the node itself, and then that its direct parts pass it. -/
theorem isLiteral_iff_parts (expression : Expr) :
    expression.isLiteral = true ↔ LiteralNode expression ∧
      ∀ inner ∈ expression.subexpressions, inner.isLiteral = true := by
  cases expression with
  | literal span kind raw => simp [isLiteral, subexpressions, LiteralNode.literal]
  | array span items form =>
      rw [isLiteral, Bool.and_eq_true, areLiterals_iff, bne_iff_ne, subexpressions, ← and_assoc]
      apply and_congr_left
      intro _
      constructor
      · rintro ⟨written, plain⟩
        exact .array written plain
      · intro node
        cases node with
        | array written plain => exact ⟨written, plain⟩
  | unary span operator operand trailing =>
      rw [isLiteral_unary_iff, isNumber_iff]
      constructor
      · rintro ⟨sign, operandSpan, kind, raw, rfl, number⟩
        exact ⟨.signed sign number, by simp [subexpressions, isLiteral]⟩
      · rintro ⟨node, _⟩
        cases node with
        | signed sign number => exact ⟨sign, _, _, _, rfl, number⟩
  | _ =>
      constructor
      · intro accepted
        cases accepted
      · rintro ⟨node, _⟩
        cases node

theorem isLiteral_iff_walk (expression : Expr) :
    expression.isLiteral = true ↔ ∀ node ∈ expression.walk, LiteralNode node :=
  iff_forall_mem_walk isLiteral_iff_parts expression

theorem mem_walk_of_mem_walk_part {inner part expression : Expr}
    (direct : part ∈ expression.subexpressions) (walked : inner ∈ part.walk) :
    inner ∈ expression.walk := by
  rw [walk_eq]
  exact List.mem_cons_of_mem _ (List.mem_flatMap.mpr ⟨part, direct, walked⟩)

theorem HeldBy.mem_walk {inner expression : Expr} (held : HeldBy inner expression) :
    inner ∈ expression.walk := by
  induction held with
  | self =>
      rw [walk_eq]
      exact List.mem_cons_self
  | key member keyed _ ih =>
      refine mem_walk_of_mem_walk_part ?_ ih
      exact List.mem_flatMap.mpr ⟨_, member, by simp [keyed]⟩
  | value member _ ih =>
      refine mem_walk_of_mem_walk_part ?_ ih
      exact List.mem_flatMap.mpr ⟨_, member, by simp⟩

theorem LiteralNode.not_isEvaluated {expression : Expr} (node : LiteralNode expression) :
    expression.isEvaluated = false := by
  cases node <;> rfl

/-- The test for literal values accepts an expression exactly if every node of its walk may stand in
a literal value. What it accepts holds no variable, call, assignment or name of a constant, neither
in the keys nor in the values of its arrays. -/
theorem isLiteral_exact (expression : Expr) :
    (expression.isLiteral = true ↔ ∀ node ∈ expression.walk, LiteralNode node) ∧
    (expression.isLiteral = true →
      ∀ inner, HeldBy inner expression → inner.isEvaluated = false) := by
  refine ⟨isLiteral_iff_walk expression, ?_⟩
  intro accepted inner held
  exact ((isLiteral_iff_walk expression).mp accepted inner held.mem_walk).not_isEvaluated

/-- The value `['k' => array(1 => -2.5)]`. -/
def nestedArray : Expr :=
  .array {} [⟨{}, some (.literal {} .string "'k'"),
    .array {} [⟨{}, some (.literal {} .int "1"),
      .unary {} .minus (.literal {} .float "2.5") false, false, false⟩] .long, false, false⟩] .short

theorem isLiteral_exact_nestedArray :
    nestedArray.isLiteral = true ∧
      ∀ inner, HeldBy inner nestedArray → inner.isEvaluated = false :=
  ⟨rfl, (isLiteral_exact nestedArray).2 rfl⟩

end Expr

end PhpAudit
