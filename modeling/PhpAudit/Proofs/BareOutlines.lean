import PhpAudit.Proofs.SourcePlaces

/-!
Outlines without their places. A member that is named in braces is kept as it was written, with the
white space between the braces, so of such a name only the brace in front is left. Trees that look
alike in this sense still do when the same accesses and the same operators are folded into them.
-/

namespace PhpAudit

namespace Outline

/-- The name of a member, or only the opening brace if it is an expression in braces. -/
def bareSelector (name : String) : String :=
  if name.toList.head? == some '\x7b' then "\x7b" else name

/-- The fields that keep the name of a member as it was written. -/
def selectorFields : List String := ["property", "method", "name"]

/-- The field of this name, with a name in braces cut to its first brace. -/
def selected (field : String) : Outline → Outline
  | .text value =>
      .text (if selectorFields.contains field then bareSelector value else value)
  | other => other

mutual

/-- The outline without places and without the expressions in braces that name members. -/
def bare : Outline → Outline
  | .absent => .absent
  | .flag value => .flag value
  | .text value => .text value
  | .list items => .list (bareList items)
  | .node label _ fields => .node label {} (bareFields fields)

def bareList : List Outline → List Outline
  | [] => []
  | item :: rest => item.bare :: bareList rest

def bareFields : List (String × Outline) → List (String × Outline)
  | [] => []
  | (field, value) :: rest => (field, value.bare.selected field) :: bareFields rest

end

theorem bareList_eq_map (items : List Outline) : bareList items = items.map bare := by
  induction items with
  | nil => rfl
  | cons item rest ih => rw [bareList, ih, List.map_cons]

@[simp] theorem bare_absent : bare .absent = .absent := by rw [bare]

@[simp] theorem bare_flag (value : Bool) : bare (.flag value) = .flag value := by rw [bare]

@[simp] theorem bare_text (value : String) : bare (.text value) = .text value := by rw [bare]

@[simp] theorem bare_list (items : List Outline) : bare (.list items) = .list (items.map bare) := by
  rw [bare, bareList_eq_map]

@[simp] theorem bare_node (label : String) (span : Span) (fields : List (String × Outline)) :
    bare (.node label span fields) =
      .node label {} (fields.map fun field => (field.1, field.2.bare.selected field.1)) := by
  rw [bare]
  congr 1
  induction fields with
  | nil => rfl
  | cons field rest ih => rw [bareFields, ih, List.map_cons]

end Outline

open Outline (bareSelector)

attribute [local simp] Expr.outline Stmt.outline

theorem Expr.exists_outline (expression : Expr) :
    ∃ fields, expression.outline = .node expression.label expression.span fields := by
  cases expression <;> exact ⟨_, rfl⟩

/-- Expressions that look alike are of the same kind. -/
theorem Expr.label_eq_of_bare {first second : Expr}
    (same : first.outline.bare = second.outline.bare) : first.label = second.label := by
  obtain ⟨fields, outlined⟩ := first.exists_outline
  obtain ⟨others, outlinedToo⟩ := second.exists_outline
  rw [outlined, outlinedToo, Outline.bare_node, Outline.bare_node] at same
  exact (Outline.node.inj same).1

theorem Expr.exists_var {expression : Expr} (plain : expression.label = "Variable") :
    ∃ span name, expression = .var span name := by
  cases expression with
  | var span name => exact ⟨span, name, rfl⟩
  | _ => simp [Expr.label] at plain

theorem outlineOption_bare {first second : Option Expr}
    (same : first.map (fun value => value.outline.bare) = second.map fun value => value.outline.bare) :
    (outlineOption first).bare = (outlineOption second).bare := by
  cases first <;> cases second <;> simp_all [outlineOption]

/-! Accesses -/

/-- An access without places. -/
def Access.bare : Access → Outline
  | .member name => .list [.text "member", .text (bareSelector name)]
  | .nullsafeMember name => .list [.text "nullsafeMember", .text (bareSelector name)]
  | .staticProperty name => .list [.text "staticProperty", .text (bareSelector name)]
  | .classConstant name => .list [.text "classConstant", .text (bareSelector name)]
  | .element index => .list [.text "element", (outlineOption index).bare]
  | .call arguments =>
      .list [.text "call", .list (arguments.map fun argument => (outlineArgument argument).bare)]
  | .increment => .text "++"
  | .decrement => .text "--"

namespace Expr

/-- The kinds of expression whose call is one expression with them. -/
def memberLabels : List String :=
  ["PropertyFetch", "NullsafePropertyFetch", "StaticPropertyFetch", "ClassConstantFetch"]

theorem isFetch_eq (expression : Expr) :
    expression.isFetch = memberLabels.contains expression.label := by
  cases expression <;> rfl

theorem exists_member {target : Expr} (member : target.label ∈ memberLabels) :
    (∃ span object name, target = .property span object name) ∨
      (∃ span object name, target = .nullsafeProperty span object name) ∨
      (∃ span owner name, target = .staticProperty span owner name) ∨
      ∃ span owner name, target = .classConstant span owner name := by
  cases target with
  | property span object name => exact .inl ⟨span, object, name, rfl⟩
  | nullsafeProperty span object name => exact .inr (.inl ⟨span, object, name, rfl⟩)
  | staticProperty span owner name => exact .inr (.inr (.inl ⟨span, owner, name, rfl⟩))
  | classConstant span owner name => exact .inr (.inr (.inr ⟨span, owner, name, rfl⟩))
  | _ => simp [Expr.label, memberLabels] at member

theorem access_call {target : Expr} (other : target.label ∉ memberLabels)
    (arguments : List (Argument Expr)) :
    target.access (.call arguments) = .call target.span target arguments := by
  have plain : target.isFetch = false := by simpa [isFetch_eq] using other
  exact Stage.access_eq_node (.inl plain)

theorem access_call_bare {target second : Expr} {arguments others : List (Argument Expr)}
    (same : target.outline.bare = second.outline.bare)
    (alike : arguments.map (fun argument => (outlineArgument argument).bare) =
      others.map fun argument => (outlineArgument argument).bare) :
    (target.access (.call arguments)).outline.bare = (second.access (.call others)).outline.bare := by
  have label := label_eq_of_bare same
  by_cases member : target.label ∈ memberLabels
  · rcases exists_member member with ⟨span, object, name, rfl⟩ | ⟨span, object, name, rfl⟩ |
      ⟨span, object, name, rfl⟩ | ⟨span, object, name, rfl⟩ <;>
    rcases exists_member (label ▸ member) with ⟨place, other, text, rfl⟩ |
      ⟨place, other, text, rfl⟩ | ⟨place, other, text, rfl⟩ | ⟨place, other, text, rfl⟩ <;>
    simp_all [Expr.label, Expr.access, Expr.outline, Outline.selected, Outline.selectorFields,
      Function.comp_def]
  · rw [access_call member, access_call (label ▸ member)]
    simp [Expr.outline, same, alike, Function.comp_def]

theorem access_bare {target second : Expr} {access step : Access}
    (same : target.outline.bare = second.outline.bare) (alike : access.bare = step.bare) :
    (target.access access).outline.bare = (second.access step).outline.bare := by
  cases access <;> cases step <;> simp only [Access.bare, Outline.list.injEq, List.cons.injEq,
    Outline.text.injEq, reduceCtorEq, and_true, true_and, String.reduceEq, false_and] at alike
  case call.call => exact access_call_bare same alike
  all_goals
    simp [Expr.access, Expr.outline, Outline.selected, Outline.selectorFields, same, alike]

theorem accessAll_bare {target second : Expr} {steps others : List Access}
    (same : target.outline.bare = second.outline.bare)
    (alike : steps.map Access.bare = others.map Access.bare) :
    (target.accessAll steps).outline.bare = (second.accessAll others).outline.bare := by
  induction steps generalizing target second others with
  | nil =>
      obtain rfl : others = [] := List.map_eq_nil_iff.mp alike.symm
      exact same
  | cons step rest ih =>
      obtain ⟨other, more, rfl, first, behind⟩ := List.map_eq_cons_iff.mp alike.symm
      change ((target.access step).accessAll rest).outline.bare =
        ((second.access other).accessAll more).outline.bare
      exact ih (access_bare same first.symm) behind.symm

/-! Operators -/

theorem join_bare {left first right second : Expr} (operator : BinaryOperator)
    (same : left.outline.bare = first.outline.bare)
    (alike : right.outline.bare = second.outline.bare) :
    (left.join operator right).outline.bare = (first.join operator second).outline.bare := by
  simp [Expr.join, Expr.outline, same, alike]

/-- The operands that wait for their right one, without places. -/
def bareWaiting (waiting : List (Expr × BinaryOperator)) : List (Outline × BinaryOperator) :=
  waiting.map fun pair => (pair.1.outline.bare, pair.2)

theorem settle_bare (next : BinaryOperator) {waiting others : List (Expr × BinaryOperator)}
    {current second : Expr} (same : bareWaiting waiting = bareWaiting others)
    (alike : current.outline.bare = second.outline.bare) :
    bareWaiting (settle next waiting current).1 = bareWaiting (settle next others second).1 ∧
      (settle next waiting current).2.outline.bare = (settle next others second).2.outline.bare := by
  induction waiting generalizing others current second with
  | nil =>
      obtain rfl : others = [] := List.map_eq_nil_iff.mp same.symm
      exact ⟨rfl, alike⟩
  | cons pair rest ih =>
      obtain ⟨other, more, rfl, first, behind⟩ := List.map_eq_cons_iff.mp same.symm
      obtain ⟨left, operator⟩ := pair
      obtain ⟨leftToo, operatorToo⟩ := other
      obtain ⟨look, rfl⟩ := Prod.mk.inj first
      simp only [settle]
      split
      · exact ih behind.symm (join_bare _ look.symm alike)
      · exact ⟨same, alike⟩

theorem close_bare {waiting others : List (Expr × BinaryOperator)} {current second : Expr}
    (same : bareWaiting waiting = bareWaiting others)
    (alike : current.outline.bare = second.outline.bare) :
    (close waiting current).outline.bare = (close others second).outline.bare := by
  induction waiting generalizing others current second with
  | nil =>
      obtain rfl : others = [] := List.map_eq_nil_iff.mp same.symm
      exact alike
  | cons pair rest ih =>
      obtain ⟨other, more, rfl, first, behind⟩ := List.map_eq_cons_iff.mp same.symm
      obtain ⟨left, operator⟩ := pair
      obtain ⟨leftToo, operatorToo⟩ := other
      obtain ⟨look, known⟩ := Prod.mk.inj first
      change operatorToo = operator at known
      subst known
      change (close rest (left.join operatorToo current)).outline.bare =
        (close more (leftToo.join operatorToo second)).outline.bare
      exact ih behind.symm (join_bare _ look.symm alike)

theorem foldFrom_bare {waiting others : List (Expr × BinaryOperator)} {current second : Expr}
    {rest more : List (BinaryOperator × Expr)}
    (same : bareWaiting waiting = bareWaiting others)
    (alike : current.outline.bare = second.outline.bare)
    (operands : rest.map (fun pair => (pair.1, pair.2.outline.bare)) =
      more.map fun pair => (pair.1, pair.2.outline.bare)) :
    (foldFrom waiting current rest).outline.bare = (foldFrom others second more).outline.bare := by
  induction rest generalizing waiting others current second more with
  | nil =>
      obtain rfl : more = [] := List.map_eq_nil_iff.mp operands.symm
      exact close_bare same alike
  | cons pair rest ih =>
      obtain ⟨other, further, rfl, first, behind⟩ := List.map_eq_cons_iff.mp operands.symm
      obtain ⟨operator, operand⟩ := pair
      obtain ⟨operatorToo, operandToo⟩ := other
      obtain ⟨known, look⟩ := Prod.mk.inj first
      change operatorToo = operator at known
      subst known
      obtain ⟨settled, joined⟩ := settle_bare operatorToo same alike
      change (foldFrom (((settle operatorToo waiting current).2, operatorToo) ::
          (settle operatorToo waiting current).1) operand rest).outline.bare =
        (foldFrom (((settle operatorToo others second).2, operatorToo) ::
          (settle operatorToo others second).1) operandToo further).outline.bare
      refine ih ?_ look.symm behind.symm
      change (_, operatorToo) :: bareWaiting _ = (_, operatorToo) :: bareWaiting _
      rw [joined, settled]

theorem foldOperators_bare {first second : Expr} {rest others : List (BinaryOperator × Expr)}
    (same : first.outline.bare = second.outline.bare)
    (operands : rest.map (fun pair => (pair.1, pair.2.outline.bare)) =
      others.map fun pair => (pair.1, pair.2.outline.bare)) :
    (first.foldOperators rest).outline.bare = (second.foldOperators others).outline.bare :=
  foldFrom_bare rfl same operands

end Expr

end PhpAudit
