import PhpAudit.Proofs.SitedStatements

/-!
The clauses of conditionals in a tree. Whether a body is open can be seen from its outline, so what
reading says about the bodies of a conditional holds wherever its outline occurs.
-/

namespace PhpAudit

open Outline

theorem Stmt.exists_outline (statement : Stmt) :
    ∃ span fields, statement.outline = .node statement.label span fields := by
  cases statement with
  | block content =>
      rcases content with ⟨span, statements⟩
      exact ⟨_, _, rfl⟩
  | declaration content =>
      rcases content with ⟨span, name, kind, members⟩
      exact ⟨_, _, rfl⟩
  | _ => exact ⟨_, _, rfl⟩

theorem Stmt.label_eq_of_outline {first second : Stmt} (same : first.outline = second.outline) :
    first.label = second.label := by
  obtain ⟨_, _, firstNode⟩ := first.exists_outline
  obtain ⟨_, _, secondNode⟩ := second.exists_outline
  rw [firstNode, secondNode] at same
  exact (Outline.node.inj same).1

theorem Stmt.label_declaration_ne (content : Declaration Expr Stmt) {label : String}
    (other : label ∉ ["Class", "Interface", "Trait", "Enum"]) :
    (Stmt.declaration content).label ≠ label := by
  rintro rfl
  exact other (by rw [Stmt.label]; cases content.kind <;> simp [DeclarationKind.label])

theorem Stmt.label_ne_colonBody (statement : Stmt) : statement.label ≠ "ColonBody" := by
  cases statement with
  | declaration content => exact label_declaration_ne content (by decide)
  | _ => simp [label]

/-- A body with the outline of a statement is a statement. -/
theorem exists_single_of_outline {statement : Stmt} {body : Body Stmt}
    (same : outlineBody (.single statement) = outlineBody body) :
    ∃ other, body = .single other ∧ statement.outline = other.outline := by
  cases body with
  | single other => exact ⟨other, rfl, same⟩
  | colon span statements =>
      obtain ⟨_, _, node⟩ := statement.exists_outline
      rw [outlineBody, node] at same
      exact absurd (Outline.node.inj same).1 statement.label_ne_colonBody

/-! A statement with the outline of a conditional or of a loop is one. -/

section Inversion

variable {statement : Stmt} {span : Span} {condition items target : Expr} {key : Option Expr}
  {marked : Bool} {initializers conditions steps : List Expr} {body : Body Stmt}
  {elseIfs : List (ElseIf Expr Stmt)} {otherwise : Option (Else Stmt)}

theorem exists_ifElse_of_outline
    (same : (Stmt.ifElse span condition body elseIfs otherwise).outline = statement.outline) :
    ∃ place test inner clauses last, statement = .ifElse place test inner clauses last ∧
      outlineBody body = outlineBody inner ∧ outlineElseIfs elseIfs = outlineElseIfs clauses ∧
      outlineOptionElse otherwise = outlineOptionElse last := by
  have label : "If" = statement.label := Stmt.label_eq_of_outline same
  cases statement with
  | ifElse place test inner clauses last =>
      simp only [Stmt.outline, Outline.node.injEq, List.cons.injEq, Prod.mk.injEq,
        Outline.list.injEq] at same
      obtain ⟨_, _, _, ⟨_, bodies⟩, ⟨_, elseIfs⟩, ⟨_, last⟩, _⟩ := same
      exact ⟨_, _, _, _, _, rfl, bodies, elseIfs, last⟩
  | declaration content => exact absurd label.symm (Stmt.label_declaration_ne content (by decide))
  | _ => simp [Stmt.label] at label

theorem exists_whileLoop_of_outline
    (same : (Stmt.whileLoop span condition body).outline = statement.outline) :
    ∃ place test inner, statement = .whileLoop place test inner ∧
      outlineBody body = outlineBody inner := by
  have label : "While" = statement.label := Stmt.label_eq_of_outline same
  cases statement with
  | whileLoop place test inner =>
      simp only [Stmt.outline, Outline.node.injEq, List.cons.injEq, Prod.mk.injEq] at same
      obtain ⟨_, _, _, ⟨_, bodies⟩, _⟩ := same
      exact ⟨_, _, _, rfl, bodies⟩
  | declaration content => exact absurd label.symm (Stmt.label_declaration_ne content (by decide))
  | _ => simp [Stmt.label] at label

theorem exists_forLoop_of_outline
    (same : (Stmt.forLoop span initializers conditions steps body).outline = statement.outline) :
    ∃ place first second third inner, statement = .forLoop place first second third inner ∧
      outlineBody body = outlineBody inner := by
  have label : "For" = statement.label := Stmt.label_eq_of_outline same
  cases statement with
  | forLoop place first second third inner =>
      simp only [Stmt.outline, Outline.node.injEq, List.cons.injEq, Prod.mk.injEq] at same
      obtain ⟨_, _, _, _, _, ⟨_, bodies⟩, _⟩ := same
      exact ⟨_, _, _, _, _, rfl, bodies⟩
  | declaration content => exact absurd label.symm (Stmt.label_declaration_ne content (by decide))
  | _ => simp [Stmt.label] at label

theorem exists_foreachLoop_of_outline
    (same : (Stmt.foreachLoop span items key marked body target).outline = statement.outline) :
    ∃ place list name flag inner goal, statement = .foreachLoop place list name flag inner goal ∧
      outlineBody body = outlineBody inner := by
  have label : "Foreach" = statement.label := Stmt.label_eq_of_outline same
  cases statement with
  | foreachLoop place list name flag inner goal =>
      simp only [Stmt.outline, Outline.node.injEq, List.cons.injEq, Prod.mk.injEq] at same
      obtain ⟨_, _, _, _, _, ⟨_, bodies⟩, _⟩ := same
      exact ⟨_, _, _, _, _, _, rfl, bodies⟩
  | declaration content => exact absurd label.symm (Stmt.label_declaration_ne content (by decide))
  | _ => simp [Stmt.label] at label

end Inversion

theorem outlineElse_inj {first second : Else Stmt} (same : outlineElse first = outlineElse second) :
    outlineBody first.body = outlineBody second.body := by
  obtain ⟨span, body⟩ := first
  obtain ⟨place, other⟩ := second
  simp only [outlineElse, Outline.node.injEq, List.cons.injEq, Prod.mk.injEq] at same
  obtain ⟨_, _, ⟨_, bodies⟩, _⟩ := same
  exact bodies

theorem outlineElseIf_inj {first second : ElseIf Expr Stmt}
    (same : outlineElseIf first = outlineElseIf second) :
    outlineBody first.body = outlineBody second.body := by
  obtain ⟨span, condition, body⟩ := first
  obtain ⟨place, test, other⟩ := second
  simp only [outlineElseIf, Outline.node.injEq, List.cons.injEq, Prod.mk.injEq] at same
  obtain ⟨_, _, _, ⟨_, bodies⟩, _⟩ := same
  exact bodies

/-- Whether a statement is open can be seen from its outline. -/
theorem Stmt.Open.of_outline_eq {first second : Stmt} (isOpen : first.Open)
    (same : first.outline = second.outline) : second.Open := by
  induction isOpen generalizing second with
  | withoutElse =>
      obtain ⟨_, _, inner, _, last, rfl, bodies, _, none⟩ := exists_ifElse_of_outline same
      obtain ⟨other, rfl, _⟩ := exists_single_of_outline bodies
      rcases last with _ | ⟨place, final⟩
      · exact .withoutElse
      · cases none
  | inElse inner ih =>
      obtain ⟨_, _, _, _, last, rfl, bodies, _, clauses⟩ := exists_ifElse_of_outline same
      obtain ⟨other, rfl, _⟩ := exists_single_of_outline bodies
      rcases last with _ | ⟨place, body⟩
      · cases clauses
      · obtain ⟨final, rfl, outlines⟩ := exists_single_of_outline (outlineElse_inj clauses)
        exact .inElse (ih outlines)
  | inWhile inner ih =>
      obtain ⟨_, _, _, rfl, bodies⟩ := exists_whileLoop_of_outline same
      obtain ⟨other, rfl, outlines⟩ := exists_single_of_outline bodies
      exact .inWhile (ih outlines)
  | inFor inner ih =>
      obtain ⟨_, _, _, _, _, rfl, bodies⟩ := exists_forLoop_of_outline same
      obtain ⟨other, rfl, outlines⟩ := exists_single_of_outline bodies
      exact .inFor (ih outlines)
  | inForeach inner ih =>
      obtain ⟨_, _, _, _, _, _, rfl, bodies⟩ := exists_foreachLoop_of_outline same
      obtain ⟨other, rfl, outlines⟩ := exists_single_of_outline bodies
      exact .inForeach (ih outlines)

theorem Body.Open.of_outline_eq {first second : Body Stmt} (isOpen : first.Open)
    (same : outlineBody first = outlineBody second) : second.Open := by
  cases first with
  | single statement =>
      obtain ⟨other, rfl, outlines⟩ := exists_single_of_outline same
      exact Stmt.Open.of_outline_eq isOpen outlines
  | colon span statements => cases isOpen

theorem followedBodies_outline {body other : Body Stmt} {elseIfs clauses : List (ElseIf Expr Stmt)}
    {otherwise last : Option (Else Stmt)} (bodies : outlineBody body = outlineBody other)
    (elseIfsSame : outlineElseIfs elseIfs = outlineElseIfs clauses)
    (lastSame : outlineOptionElse otherwise = outlineOptionElse last) :
    (followedBodies body elseIfs otherwise).map outlineBody =
      (followedBodies other clauses last).map outlineBody := by
  induction elseIfs generalizing body other clauses with
  | nil =>
      cases clauses with
      | nil =>
          rcases otherwise with _ | ⟨span, final⟩ <;> rcases last with _ | ⟨place, goal⟩
          · rfl
          · cases lastSame
          · cases lastSame
          · simp [followedBodies, bodies]
      | cons clause rest => cases elseIfsSame
  | cons clause rest ih =>
      cases clauses with
      | nil => cases elseIfsSame
      | cons found others =>
          obtain ⟨first, more⟩ := List.cons.inj elseIfsSame
          simp only [followedBodies, List.map_cons, bodies, ih (outlineElseIf_inj first) more]

/-- In no conditional of a tree does another clause follow an open body: every clause belongs to the
nearest conditional that can take it. -/
theorem parse_else_nearest {text : String} {statements : List Stmt}
    (parsed : parse text = .ok statements) :
    ∀ statement ∈ statements, ∀ span condition body elseIfs otherwise,
      Occurs (Stmt.ifElse span condition body elseIfs otherwise).outline statement.outline →
        ∀ preceding ∈ followedBodies body elseIfs otherwise, ¬ preceding.Open := by
  intro statement member span condition body elseIfs otherwise occurs preceding follows isOpen
  have node := parse_sited parsed statement member "If" span _ occurs
  obtain ⟨test, inner, clauses, last, fields, closed⟩ := node.conditional rfl
  obtain ⟨_, ⟨_, bodies⟩, ⟨_, elseIfsSame⟩, ⟨_, lastSame⟩, _⟩ := by
    simpa only [List.cons.injEq, Prod.mk.injEq, Outline.list.injEq] using fields
  have outlines := followedBodies_outline bodies elseIfsSame lastSame
  have found : outlineBody preceding ∈ (followedBodies inner clauses last).map outlineBody := by
    rw [← outlines]
    exact List.mem_map_of_mem follows
  obtain ⟨other, present, same⟩ := List.mem_map.mp found
  exact closed other present (isOpen.of_outline_eq same.symm)

/-- The first last clause belongs to the inner conditional, the second one to the outer. -/
theorem parse_else_nearest_nested :
    parse "<?php if ($a) if ($b) ; else ; else ;" = .ok [.openingTag {} "<?php",
      .ifElse ⟨1, 7, 6⟩ (.var ⟨1, 11, 10⟩ "$a")
        (.single (.ifElse ⟨1, 15, 14⟩ (.var ⟨1, 19, 18⟩ "$b") (.single (.noop ⟨1, 23, 22⟩)) []
          (some ⟨⟨1, 25, 24⟩, .single (.noop ⟨1, 30, 29⟩)⟩))) []
        (some ⟨⟨1, 32, 31⟩, .single (.noop ⟨1, 37, 36⟩)⟩)] ∧
    ¬ (Stmt.ifElse ⟨1, 15, 14⟩ (.var ⟨1, 19, 18⟩ "$b") (.single (.noop ⟨1, 23, 22⟩)) []
      (some ⟨⟨1, 25, 24⟩, .single (.noop ⟨1, 30, 29⟩)⟩)).Open := by
  have parsed : parse "<?php if ($a) if ($b) ; else ; else ;" = .ok [.openingTag {} "<?php",
      .ifElse ⟨1, 7, 6⟩ (.var ⟨1, 11, 10⟩ "$a")
        (.single (.ifElse ⟨1, 15, 14⟩ (.var ⟨1, 19, 18⟩ "$b") (.single (.noop ⟨1, 23, 22⟩)) []
          (some ⟨⟨1, 25, 24⟩, .single (.noop ⟨1, 30, 29⟩)⟩))) []
        (some ⟨⟨1, 32, 31⟩, .single (.noop ⟨1, 37, 36⟩)⟩)] := rfl
  exact ⟨parsed, parse_else_nearest parsed _ (List.mem_cons_of_mem _ List.mem_cons_self)
    ⟨1, 7, 6⟩ _ _ _ _ .here _ List.mem_cons_self⟩

end PhpAudit
