import PhpAudit.Proofs.AccessChains
import PhpAudit.Proofs.DanglingElse
import PhpAudit.Proofs.NamespaceHeaders
import PhpAudit.Proofs.OperandShapes
import PhpAudit.Tree.Outline

/-!
The nodes of a tree and the text it was read from. Every node stands at a place of the text, the
text at the place of a leaf begins with the string that the leaf keeps, and the text at the place
of a loop over items with the header that the loop keeps. In a conditional no clause follows an open
body, and in a namespace without braces no namespace stands that would have ended it. The operands
of calls and operators are such that the operation belongs to them as they are.
-/

namespace PhpAudit

/-- The span names a place of the text. -/
def Placed (text : List Char) (span : Span) : Prop :=
  ∃ offset ≤ text.length, spanAt text offset = span

/-- The text at the place that the span names begins with the string. -/
def Written (text : List Char) (span : Span) (stored : String) : Prop :=
  ∃ offset ≤ text.length, spanAt text offset = span ∧ stored.toList <+: text.drop offset

theorem Written.placed {text : List Char} {span : Span} {stored : String}
    (written : Written text span stored) : Placed text span := by
  obtain ⟨offset, bound, same, _⟩ := written
  exact ⟨offset, bound, same⟩

namespace Point

/-- The point is one of the text. -/
def In (text : List Char) (point : Point) : Prop :=
  ∃ passed, text = passed ++ point.rest ∧ point.span = ({} : Span).after passed

theorem In.written {text : List Char} {point : Point} {stored : String} (inText : point.In text)
    (ahead : stored.toList <+: point.rest) : Written text point.span stored := by
  obtain ⟨passed, rfl, span⟩ := inText
  refine ⟨passed.length, by simp, ?_, by simpa using ahead⟩
  simp [spanAt, span]

theorem In.placed {text : List Char} {point : Point} (inText : point.In text) :
    Placed text point.span := by
  obtain ⟨passed, rfl, span⟩ := inText
  exact ⟨passed.length, by simp, by simp [spanAt, span]⟩

end Point

theorem Cursor.Reaches.inText {text : List Char} {cursor later : Cursor}
    (reached : cursor.Reaches later) (inText : cursor.point.In text) : later.point.In text := by
  obtain ⟨first, passes⟩ := reached
  obtain ⟨passed, whole, span⟩ := inText
  refine ⟨passed ++ first, ?_, ?_⟩
  · rw [whole, List.append_assoc]
    exact congrArg (passed ++ ·) passes.rest
  · change later.span = _
    rw [passes.span, Span.after_append]
    exact congrArg (Span.after · first) span

theorem Cursor.Within.inText {nested : Nested} {text : List Char} {cursor : Cursor}
    (within : cursor.Within nested text) : cursor.point.In text := by
  refine ⟨text.take cursor.offset, ?_, within.span⟩
  change text = text.take cursor.offset ++ cursor.rest
  rw [within.rest, List.take_append_drop]

namespace Outline

/-- The outlines inside an outline, with itself. -/
inductive Occurs (part : Outline) : Outline → Prop where
  | here : Occurs part part
  | item {item items} (member : item ∈ items) (inside : Occurs part item) :
      Occurs part (.list items)
  | field {name value label span fields} (member : (name, value) ∈ fields)
      (inside : Occurs part value) : Occurs part (.node label span fields)

/-- The nodes that keep a piece of the text, each with the field it is kept in. -/
def leafFields : List (String × String) :=
  [("Variable", "name"), ("Name", "name"), ("Literal", "raw"), ("Identifier", "value"),
    ("NamedHint", "name"), ("InlineHtml", "text")]

/-- The fields of a loop over items keep the header at an offset of the text. The mark for a
reference is in the field `value`, the target in the field `by_ref`. -/
def LoopWritten (text : List Char) (offset : Nat) (fields : List (String × Outline)) : Prop :=
  ∃ items key marked body target,
    fields = [("expression", items.outline), ("key", outlineOption key), ("value", .flag marked),
      ("body", outlineBody body), ("by_ref", target.outline)] ∧
    LoopHeader text offset items key marked target

/-- The fields are those of a conditional in which no clause follows an open body. -/
def ClausesAttached (fields : List (String × Outline)) : Prop :=
  ∃ (condition : Expr) (body : Body Stmt) (elseIfs : List (ElseIf Expr Stmt))
      (otherwise : Option (Else Stmt)),
    fields = [("condition", condition.outline), ("body", outlineBody body),
      ("elseifs", .list (outlineElseIfs elseIfs)), ("else_clause", outlineOptionElse otherwise)] ∧
    ∀ preceding ∈ followedBodies body elseIfs otherwise, ¬ preceding.Open

/-- The fields are those of a namespace. Without braces, it holds at most one namespace, whose
header stands before a closing tag. -/
def PackageWritten (text : List Char) (fields : List (String × Outline)) : Prop :=
  ∃ (name : Option String) (statements : List Stmt) (braced : Bool),
    fields = [("name", optionalText name), ("statements", .list (outlineStmts statements)),
      ("braced", .flag braced)] ∧
    (braced = false → TaggedAtEnd text statements)

/-- The fields are those of a call whose target is not the access to a member: a member that is called
is one node with its call. -/
def CallApart (fields : List (String × Outline)) : Prop :=
  ∃ (target : Expr) (arguments : List (Argument Expr)),
    fields = [("target", target.outline), ("arguments", .list (outlineArguments arguments))] ∧
    target.isFetch = false

/-- The fields are those of an operator with one operand. Behind all but a few words, no other
operator joins that operand. -/
def OperandClose (fields : List (String × Outline)) : Prop :=
  ∃ (operator : UnaryOperator) (operand : Expr) (trailing : Bool),
    fields = [("operator", .text operator.symbol), ("operand", operand.outline),
      ("postfix", .flag trailing)] ∧
    (trailing = false → operator.isCommand = false → operand.Whole)

/-- The fields are those of an operator with two operands that may stand where they are. -/
def PairFits (fields : List (String × Outline)) : Prop :=
  ∃ (left : Expr) (operator : BinaryOperator) (right : Expr),
    fields = [("left", left.outline), ("operator", .text operator.symbol),
      ("right", right.outline)] ∧
    operator.Fits false left ∧ operator.Fits true right

/-- The operations, each with what is known of its fields. -/
def operations : List (String × (List (String × Outline) → Prop)) :=
  [("FunctionCall", CallApart), ("Unary", OperandClose), ("Binary", PairFits)]

/-- A node stands at a place of the text, a leaf at the piece of text it keeps, and a loop over
items at the header it keeps. The clauses of a conditional belong to it, and so do the statements of
a namespace and the operands of an operation. -/
structure NodeSited (text : List Char) (label : String) (span : Span)
    (fields : List (String × Outline)) : Prop where
  placed : Placed text span
  leaf : ∀ field, leafFields.lookup label = some field →
    ∃ stored, fields.lookup field = some (.text stored) ∧ Written text span stored
  loop : label = "Foreach" →
    ∃ offset ≤ text.length, spanAt text offset = span ∧ LoopWritten text offset fields
  conditional : label = "If" → ClausesAttached fields
  package : label = "Namespace" → PackageWritten text fields
  operation : ∀ rule, operations.lookup label = some rule → rule fields

/-- The nodes that are no leaves, no loops over items, no conditionals, no namespaces and no
operations. -/
def isBranch (label : String) : Bool :=
  (leafFields.lookup label).isNone && label != "Foreach" && label != "If" &&
    label != "Namespace" && (operations.lookup label).isNone

/-- Every node of an outline stands where the text says. -/
def Sited (text : List Char) (outline : Outline) : Prop :=
  ∀ label span fields, Occurs (.node label span fields) outline → NodeSited text label span fields

variable {text : List Char}

@[simp] theorem sited_absent : Sited text .absent := by
  rintro label span fields ⟨⟩

@[simp] theorem sited_flag (value : Bool) : Sited text (.flag value) := by
  rintro label span fields ⟨⟩

@[simp] theorem sited_text (value : String) : Sited text (.text value) := by
  rintro label span fields ⟨⟩

@[simp] theorem sited_list {items : List Outline} :
    Sited text (.list items) ↔ ∀ item ∈ items, Sited text item := by
  constructor
  · intro sited item member label span fields occurs
    exact sited label span fields (.item member occurs)
  · rintro sited label span fields (_ | ⟨member, inside⟩)
    exact sited _ member label span fields inside

theorem sited_node {label : String} {span : Span} {fields : List (String × Outline)} :
    Sited text (.node label span fields) ↔
      NodeSited text label span fields ∧ ∀ field ∈ fields, Sited text field.2 := by
  constructor
  · intro sited
    refine ⟨sited label span fields .here, ?_⟩
    intro field member label span fields occurs
    exact sited label span fields (.field member occurs)
  · rintro ⟨node, inner⟩ label span fields occurs
    cases occurs with
    | here => exact node
    | field member inside => exact inner _ member label span fields inside

theorem Sited.branch {label : String} {span : Span} {fields : List (String × Outline)}
    (branch : isBranch label = true) (placed : Placed text span)
    (parts : ∀ field ∈ fields, Sited text field.2) : Sited text (.node label span fields) := by
  simp only [isBranch, Bool.and_eq_true, Option.isNone_iff_eq_none, bne_iff_ne] at branch
  obtain ⟨⟨⟨⟨noLeaf, noLoop⟩, noConditional⟩, noPackage⟩, noOperation⟩ := branch
  refine sited_node.mpr ⟨⟨placed, fun field leaf => ?_, fun loop => absurd loop noLoop,
    fun conditional => absurd conditional noConditional,
    fun package => absurd package noPackage, fun rule operation => ?_⟩, parts⟩
  · rw [noLeaf] at leaf
    cases leaf
  · rw [noOperation] at operation
    cases operation

theorem Sited.leaf {label field : String} {span : Span} {stored : String}
    {fields : List (String × Outline)} (leaf : leafFields.lookup label = some field)
    (kept : fields.lookup field = some (.text stored)) (written : Written text span stored)
    (parts : ∀ field ∈ fields, Sited text field.2) : Sited text (.node label span fields) := by
  have noOperation : operations.lookup label = none := by
    have each : ∀ entry ∈ leafFields, (operations.lookup entry.1).isNone = true := by decide
    obtain ⟨before, behind, table, -⟩ := List.lookup_eq_some_iff.mp leaf
    exact Option.isNone_iff_eq_none.mp (each (label, field) (by simp [table]))
  refine sited_node.mpr ⟨⟨written.placed, fun found known => ?_, ?_, ?_, ?_, ?_⟩, parts⟩
  · rw [leaf] at known
    cases known
    exact ⟨stored, kept, written⟩
  · rintro rfl
    cases leaf
  · rintro rfl
    cases leaf
  · rintro rfl
    cases leaf
  · rintro rule operation
    rw [noOperation] at operation
    cases operation

theorem Sited.operation {label : String} {span : Span} {fields : List (String × Outline)}
    {rule : List (String × Outline) → Prop} (known : operations.lookup label = some rule)
    (noLeaf : leafFields.lookup label = none) (placed : Placed text span) (holds : rule fields)
    (parts : ∀ field ∈ fields, Sited text field.2) : Sited text (.node label span fields) := by
  refine sited_node.mpr ⟨⟨placed, fun field leaf => ?_, ?_, ?_, ?_, fun found operation => ?_⟩, parts⟩
  · rw [noLeaf] at leaf
    cases leaf
  · rintro rfl
    cases known
  · rintro rfl
    cases known
  · rintro rfl
    cases known
  · rw [known] at operation
    cases operation
    exact holds

@[simp] theorem sited_texts (values : List String) : Sited text (texts values) := by
  simp [texts]

@[simp] theorem sited_optionalText (value : Option String) : Sited text (optionalText value) := by
  cases value <;> simp [optionalText]

end Outline

/-! The lists of an outline are those of its parts. -/

@[simp] theorem outlineHints_eq_map (hints : List Hint) :
    outlineHints hints = hints.map Hint.outline := by
  induction hints with
  | nil => rfl
  | cons hint rest ih => rw [outlineHints, ih, List.map_cons]

@[simp] theorem outlineExprs_eq_map (expressions : List Expr) :
    outlineExprs expressions = expressions.map Expr.outline := by
  induction expressions with
  | nil => rfl
  | cons expression rest ih => rw [outlineExprs, ih, List.map_cons]

@[simp] theorem outlineItems_eq_map (items : List (ArrayItem Expr)) :
    outlineItems items = items.map outlineItem := by
  induction items with
  | nil => rfl
  | cons item rest ih => rw [outlineItems, ih, List.map_cons]

@[simp] theorem outlineArguments_eq_map (arguments : List (Argument Expr)) :
    outlineArguments arguments = arguments.map outlineArgument := by
  induction arguments with
  | nil => rfl
  | cons argument rest ih => rw [outlineArguments, ih, List.map_cons]

@[simp] theorem outlineArms_eq_map (arms : List (MatchArm Expr)) :
    outlineArms arms = arms.map outlineArm := by
  induction arms with
  | nil => rfl
  | cons arm rest ih => rw [outlineArms, ih, List.map_cons]

@[simp] theorem outlineParameters_eq_map (parameters : List (Parameter Expr)) :
    outlineParameters parameters = parameters.map outlineParameter := by
  induction parameters with
  | nil => rfl
  | cons parameter rest ih => rw [outlineParameters, ih, List.map_cons]

@[simp] theorem outlineMembers_eq_map (members : List (Member Expr Stmt)) :
    outlineMembers members = members.map outlineMember := by
  induction members with
  | nil => rfl
  | cons member rest ih => rw [outlineMembers, ih, List.map_cons]

@[simp] theorem outlineVariables_eq_map (label : String) (entries : List (VariableEntry Expr)) :
    outlineVariables label entries = entries.map (outlineVariable label) := by
  induction entries with
  | nil => rfl
  | cons entry rest ih => rw [outlineVariables, ih, List.map_cons]

@[simp] theorem outlineConstants_eq_map (entries : List (ConstantEntry Expr)) :
    outlineConstants entries = entries.map outlineConstant := by
  induction entries with
  | nil => rfl
  | cons entry rest ih => rw [outlineConstants, ih, List.map_cons]

@[simp] theorem outlineDirectives_eq_map (entries : List (ConstantEntry Expr)) :
    outlineDirectives entries = entries.map outlineDirective := by
  induction entries with
  | nil => rfl
  | cons entry rest ih => rw [outlineDirectives, ih, List.map_cons]

@[simp] theorem outlineElseIfs_eq_map (clauses : List (ElseIf Expr Stmt)) :
    outlineElseIfs clauses = clauses.map outlineElseIf := by
  induction clauses with
  | nil => rfl
  | cons clause rest ih => rw [outlineElseIfs, ih, List.map_cons]

@[simp] theorem outlineCases_eq_map (cases : List (SwitchCase Expr Stmt)) :
    outlineCases cases = cases.map outlineCase := by
  induction cases with
  | nil => rfl
  | cons first rest ih => rw [outlineCases, ih, List.map_cons]

@[simp] theorem outlineCatches_eq_map (clauses : List (Catch Stmt)) :
    outlineCatches clauses = clauses.map outlineCatch := by
  induction clauses with
  | nil => rfl
  | cons clause rest ih => rw [outlineCatches, ih, List.map_cons]

@[simp] theorem outlineStmts_eq_map (statements : List Stmt) :
    outlineStmts statements = statements.map Stmt.outline := by
  induction statements with
  | nil => rfl
  | cons statement rest ih => rw [outlineStmts, ih, List.map_cons]

namespace Outline

variable {text : List Char}

@[simp] theorem sited_outlineHint {hint : Option Hint} :
    Sited text (outlineHint hint) ↔ ∀ found ∈ hint, Sited text found.outline := by
  cases hint <;> simp [outlineHint]

@[simp] theorem sited_outlineOption {expression : Option Expr} :
    Sited text (outlineOption expression) ↔ ∀ found ∈ expression, Sited text found.outline := by
  cases expression <;> simp [outlineOption]

@[simp] theorem sited_outlineOptionBlock {block : Option (Block Stmt)} :
    Sited text (outlineOptionBlock block) ↔ ∀ found ∈ block, Sited text (outlineBlock found) := by
  cases block <;> simp [outlineOptionBlock]

@[simp] theorem sited_outlineOptionElse {clause : Option (Else Stmt)} :
    Sited text (outlineOptionElse clause) ↔ ∀ found ∈ clause, Sited text (outlineElse found) := by
  cases clause <;> simp [outlineOptionElse]

theorem sited_identifier {identifier : Identifier}
    (written : Written text identifier.span identifier.value) : Sited text identifier.outline :=
  .leaf rfl rfl written (by simp)

end Outline

/-- An expression starts where its outline does. -/
theorem Expr.placed_span {text : List Char} {expression : Expr}
    (sited : expression.outline.Sited text) : Placed text expression.span := by
  have node : ∃ label fields, expression.outline = .node label expression.span fields := by
    cases expression <;> exact ⟨_, _, rfl⟩
  obtain ⟨label, fields, same⟩ := node
  rw [same] at sited
  exact (Outline.sited_node.mp sited).1.1

section Trees

open Outline

variable {text : List Char}

/-- Every node in the parts of an access stands where the text says. -/
def Access.Sited (text : List Char) : Access → Prop
  | .element index => ∀ found ∈ index, found.outline.Sited text
  | .call arguments => ∀ argument ∈ arguments, (outlineArgument argument).Sited text
  | _ => True

namespace Expr

theorem sited_access {target : Expr} {step : Access} (sited : target.outline.Sited text)
    (stepSited : step.Sited text) : (target.access step).outline.Sited text := by
  have placed := placed_span sited
  cases step with
  | call arguments =>
      have argumentsSited : ∀ argument ∈ arguments, (outlineArgument argument).Sited text :=
        stepSited
      cases fetch : target.isFetch with
      | false =>
          rw [Stage.access_eq_node (.inl fetch), Stage.ofStep, Stage.node, outline]
          exact .operation rfl rfl placed ⟨target, arguments, rfl, fetch⟩
            (by simpa [sited] using argumentsSited)
      | true =>
          -- A call of a member takes the place of the access and keeps the object.
          cases target <;> cases fetch
          all_goals
            rw [outline] at sited
            rw [access, outline]
            have object := (sited_node.mp sited).2 _ List.mem_cons_self
            exact .branch rfl placed (by simpa [object] using argumentsSited)
  | element index =>
      rw [access, outline]
      exact .branch rfl placed (by simpa [sited, Access.Sited] using stepSited)
  | increment | decrement =>
      rw [access, outline]
      exact .operation rfl rfl placed ⟨_, target, true, rfl, nofun⟩ (by simp [sited])
  | _ =>
      rw [access, outline]
      exact .branch rfl placed (by simp [sited])

theorem sited_accessAll {target : Expr} {steps : List Access} (sited : target.outline.Sited text)
    (stepsSited : ∀ step ∈ steps, step.Sited text) :
    (target.accessAll steps).outline.Sited text := by
  induction steps generalizing target with
  | nil => exact sited
  | cons step rest ih =>
      obtain ⟨first, others⟩ := List.forall_mem_cons.mp stepsSited
      exact ih (sited_access sited first) others

theorem sited_join {left right : Expr} {operator : BinaryOperator}
    (leftSited : left.outline.Sited text) (rightSited : right.outline.Sited text)
    (leftFits : operator.Fits false left) (rightFits : operator.Fits true right) :
    (left.join operator right).outline.Sited text := by
  rw [join, outline]
  exact .operation rfl rfl (placed_span leftSited) ⟨left, operator, right, rfl, leftFits, rightFits⟩
    (by simp [leftSited, rightSited])

end Expr

/-- The readers of nested parts give what stands where the text says, from a cursor on. -/
structure Nested.Sited (nested : Nested) (text : List Char) (start : Cursor) : Prop where
  own : nested = Nested.ofText text
  within : start.Within nested text
  hint : Reader.Gives start nested.hint fun hint _ => hint.outline.Sited text
  unary : Reader.Gives start nested.unary fun value _ => value.outline.Sited text ∧ value.Whole
  binary : Reader.Gives start nested.binary fun value _ => value.outline.Sited text
  ternary : Reader.Gives start nested.ternary fun value _ =>
    value.outline.Sited text ∧ 3 < value.level
  expression : Reader.Gives start nested.expression fun value _ => value.outline.Sited text
  statement : Reader.Gives start nested.statement fun statements _ =>
    ∀ statement ∈ statements, statement.outline.Sited text

theorem Nested.Sited.inText {nested : Nested} {start : Cursor}
    (sited : nested.Sited text start) : start.point.In text :=
  sited.within.inText

namespace Reader

variable {start : Cursor}

theorem Gives.placed {Value : Type} {next : Span → Reader Value} {result : Value → Cursor → Prop}
    (inText : start.point.In text)
    (rest : ∀ span, Placed text span → Gives start (next span) result) :
    Gives start (Reader.here >>= next) result :=
  .here fun place reached => (rest place.span (reached.inText inText).placed).later reached

/-- The reader gives text as it stands at the cursor. -/
def Copies (reader : Reader String) : Prop :=
  ∀ {cursor value later}, reader.run cursor = some (value, later) → value.toList <+: cursor.rest

theorem copies_lexeme (rule : Lexeme) : (lexeme rule).Copies := by
  intro cursor value later read
  simp only [lexeme] at read
  split at read
  · cases read
    simpa using List.take_prefix _ cursor.rest
  · cases read

theorem Gives.written {Value : Type} {reader : Reader String} {next : Span → String → Reader Value}
    {result : Value → Cursor → Prop} (inText : start.point.In text) (copies : reader.Copies)
    (rest : ∀ span stored, Written text span stored → Gives start (next span stored) result) :
    Gives start (Reader.here >>= fun span => reader >>= next span) result := by
  intro cursor value later reached read
  obtain ⟨span, place, step, read⟩ := run_bind read
  cases step
  obtain ⟨stored, middle, copied, read⟩ := run_bind read
  have written := (reached.inText inText).written (copies copied)
  exact rest cursor.span stored written (reached.trans (reader.moves copied)) read

end Reader

end Trees

end PhpAudit
