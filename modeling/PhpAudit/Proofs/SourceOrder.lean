import PhpAudit.Proofs.Reading
import PhpAudit.Proofs.Traversal

/-!
The statements of a program come in the order of the text. A reader of statements starts at one
position and ends at another, and the flattening of what it gives rises from the one to the other;
what is read one after the other rises through the place between.
-/

namespace PhpAudit

/-- Numbers that do not fall, from a lower bound to an upper one. -/
def Rising : Nat → List Nat → Nat → Prop
  | low, [], high => low ≤ high
  | low, first :: rest, high => low ≤ first ∧ Rising first rest high

namespace Rising

variable {low middle high : Nat} {first second : List Nat}

theorem widen {lower higher : Nat} (rising : Rising low first high) (below : lower ≤ low)
    (above : high ≤ higher) : Rising lower first higher := by
  induction first generalizing lower low with
  | nil => exact Nat.le_trans below (Nat.le_trans rising above)
  | cons head rest ih =>
      exact ⟨Nat.le_trans below rising.1, ih rising.2 (Nat.le_refl head)⟩

theorem append (before : Rising low first middle) (behind : Rising middle second high) :
    Rising low (first ++ second) high := by
  induction first generalizing low with
  | nil => exact behind.widen before (Nat.le_refl high)
  | cons head rest ih => exact ⟨before.1, ih before.2⟩

theorem le_of_mem (rising : Rising low first high) : ∀ number ∈ first, low ≤ number := by
  induction first generalizing low with
  | nil => nofun
  | cons head rest ih =>
      refine List.forall_mem_cons.mpr ⟨rising.1, fun number member => ?_⟩
      exact Nat.le_trans rising.1 (ih rising.2 number member)

theorem pairwise (rising : Rising low first high) : first.Pairwise (· ≤ ·) := by
  induction first generalizing low with
  | nil => exact List.Pairwise.nil
  | cons head rest ih => exact List.pairwise_cons.mpr ⟨le_of_mem rising.2, ih rising.2⟩

end Rising

/-- The flattening of statements rises from one position to another. -/
def Spread (low : Nat) (statements : List Stmt) (high : Nat) : Prop :=
  Rising low ((statements.flatMap Stmt.flatten).map fun statement => statement.span.position) high

namespace Spread

variable {low middle high : Nat}

theorem nil (bounds : low ≤ high) : Spread low [] high := bounds

theorem append {first second : List Stmt} (before : Spread low first middle)
    (behind : Spread middle second high) : Spread low (first ++ second) high := by
  unfold Spread
  rw [List.flatMap_append, List.map_append]
  exact Rising.append before behind

theorem widen {lower higher : Nat} {statements : List Stmt} (spread : Spread low statements high)
    (below : lower ≤ low) (above : high ≤ higher) : Spread lower statements higher :=
  Rising.widen spread below above

/-- A statement comes before the statements inside it. -/
theorem node_iff {statement : Stmt} : Spread low [statement] high ↔
    low ≤ statement.span.position ∧
      Spread statement.span.position statement.children high := by
  unfold Spread
  rw [List.flatMap_singleton, Stmt.flatten_eq, List.map_cons]
  exact Iff.rfl

/-- The statements inside a statement take its place. -/
theorem children {statement : Stmt} (spread : Spread low [statement] high) :
    Spread low statement.children high := by
  obtain ⟨below, inner⟩ := node_iff.mp spread
  exact inner.widen below (Nat.le_refl high)

end Spread

namespace Span

theorem position_le_after (span : Span) (characters : List Char) :
    span.position ≤ (span.after characters).position := by
  induction characters generalizing span with
  | nil => exact Nat.le_refl span.position
  | cons character rest ih =>
      have first : span.position ≤ (span.next character).position := by
        unfold next
        split <;> exact Nat.le_add_right span.position _
      exact Nat.le_trans first (ih (span.next character))

end Span

namespace Cursor

def position (cursor : Cursor) : Nat := cursor.span.position

theorem Reaches.position_le {cursor later : Cursor} (reached : cursor.Reaches later) :
    cursor.position ≤ later.position := by
  obtain ⟨passed, passes⟩ := reached
  unfold position
  rw [passes.span]
  exact Span.position_le_after cursor.span passed

end Cursor

namespace Spread

variable {statements : List Stmt} {start place : Cursor}

theorem upTo {low : Nat} (spread : Spread low statements start.position)
    (reached : start.Reaches place) : Spread low statements place.position :=
  spread.widen (Nat.le_refl low) reached.position_le

theorem since {high : Nat} (spread : Spread place.position statements high)
    (reached : start.Reaches place) : Spread start.position statements high :=
  spread.widen reached.position_le (Nat.le_refl high)

end Spread

namespace Reader

variable {First Value : Type} {start : Cursor} {nested : Nested}

/-- The statements in what the reader gives rise from where it may start to where it ends. -/
def InOrder (start : Cursor) (reader : Reader Value) (content : Value → List Stmt) : Prop :=
  Gives start reader fun value later => Spread start.position (content value) later.position

namespace InOrder

/-- A statement that stands where it is read and holds statements in order. -/
theorem node {next : Span → Reader Stmt}
    (inside : ∀ place, start.Reaches place → Gives place (next place.span) fun statement later =>
      statement.span = place.span ∧
        Spread place.position statement.children later.position) :
    InOrder start (here >>= next) fun statement => [statement] := by
  refine .here fun place reached => (inside place reached).weaken ?_
  rintro statement later _ ⟨same, spread⟩
  refine Spread.node_iff.mpr ⟨?_, ?_⟩
  · rw [same]
    exact reached.position_le
  · rw [same]
    exact spread

theorem many {reader : Reader Value} {content : Value → List Stmt}
    (each : ∀ place, start.Reaches place → InOrder place reader content) (limit : Nat) :
    InOrder start (Reader.many limit reader) fun values => values.flatMap content := by
  refine Gives.many (fun first value last => Spread first.position (content value) last.position)
    (fun first values last => Spread first.position (values.flatMap content) last.position)
    ?_ ?_ each limit
  · intro first last reached
    exact Spread.nil reached.position_le
  · intro first value middle rest last before behind
    exact before.append behind

theorem perhaps {reader : Reader Value} {content : Value → List Stmt}
    (ordered : InOrder start reader content) :
    InOrder start (Reader.perhaps reader) fun found => found.toList.flatMap content := by
  refine Gives.perhaps (ordered.weaken fun value later _ spread => ?_) fun later reached => ?_
  · simpa using spread
  · exact Spread.nil reached.position_le

/-- What follows keeps the statements and moves on. -/
theorem followed {reader : Reader Value} {content : Value → List Stmt} {trailer : Reader First}
    (ordered : InOrder start reader content) :
    InOrder start (reader >>= fun value => trailer >>= fun _ => pure value) content := by
  refine ordered.bind fun value place reached spread => .pass fun _ => .give fun later moved => ?_
  exact spread.upTo moved

/-- A value without statements is in order. -/
theorem empty {reader : Reader Value} {content : Value → List Stmt}
    (nothing : Gives start reader fun value _ => content value = []) :
    InOrder start reader content := by
  refine nothing.weaken fun value later reached none => ?_
  rw [none]
  exact Spread.nil reached.position_le

/-- A statement without statements inside it. -/
theorem leaf {next : Span → Reader Stmt}
    (shape : ∀ span, Gives start (next span) fun statement _ =>
      statement.span = span ∧ statement.children = []) :
    InOrder start (here >>= next) fun statement => [statement] := by
  refine node fun place reached => ((shape place.span).later reached).weaken ?_
  rintro statement later moved ⟨same, none⟩
  rw [none]
  exact ⟨same, Spread.nil moved.position_le⟩

end InOrder

end Reader

/-- From a cursor on, the reader of nested statements gives them in order. -/
def Nested.InOrder (nested : Nested) (start : Cursor) : Prop :=
  ∀ place, start.Reaches place → Reader.InOrder place nested.statement id

theorem Nested.InOrder.later {nested : Nested} {start place : Cursor}
    (ordered : nested.InOrder start) (reached : start.Reaches place) : nested.InOrder place :=
  fun further moved => ordered further (reached.trans moved)

namespace Reader

variable {start : Cursor} {nested : Nested}

/-! Blocks and members -/

theorem statementList_inOrder (ordered : nested.InOrder start) :
    InOrder start (statementList nested) id := by
  unfold statementList
  refine (InOrder.many (fun place reached => (ordered place reached).followed) _).bind ?_
  intro groups place reached spread
  refine .give fun later moved => ?_
  simp only [List.flatMap_id] at spread
  exact spread.upTo moved

theorem block_inOrder (ordered : nested.InOrder start) :
    InOrder start (block nested) fun block => [.block block] := by
  unfold block
  refine .here fun place reached => .pass fun _ => .pass fun _ => ?_
  refine (statementList_inOrder (ordered.later reached)).bind fun statements last _ spread => ?_
  refine .pass fun _ => .give fun later moved => Spread.node_iff.mpr ⟨reached.position_le, ?_⟩
  exact spread.upTo moved

theorem blockStatements_inOrder (ordered : nested.InOrder start) :
    InOrder start (block nested) Block.statements :=
  (block_inOrder ordered).weaken fun _ _ _ spread => spread.children

theorem bodyOrEnd_inOrder (ordered : nested.InOrder start) :
    InOrder start ((some <$> block nested) <|> (do terminator; return none))
      fun body => body.toList.flatMap Block.statements := by
  refine .orElse (.map ((blockStatements_inOrder ordered).weaken ?_)) ?_
  · intro block later _ spread
    simpa using spread
  · exact .pass fun _ => .give fun later moved => Spread.nil moved.position_le

theorem method_inOrder (ordered : nested.InOrder start) :
    InOrder start (method nested) fun member => Stmt.methodStatements [member] := by
  unfold method
  refine .pass fun _ => .pass fun _ => .pass fun _ => .pass fun _ => .pass fun _ => ?_
  refine .pass fun _ => .pass fun _ => .pass fun _ => .pass fun _ => .pass fun _ => ?_
  refine (bodyOrEnd_inOrder ordered).bind fun body place _ spread => .give fun later moved => ?_
  refine Spread.widen ?_ (Nat.le_refl _) moved.position_le
  cases body with
  | none => exact spread
  | some block => simpa [Stmt.methodStatements] using spread

theorem member_inOrder (ordered : nested.InOrder start) :
    InOrder start (member nested) fun member => Stmt.methodStatements [member] := by
  refine .pass fun _ => .orElse (InOrder.empty ?_) <| .orElse (InOrder.empty ?_) <|
    .orElse (InOrder.empty ?_) <| (method_inOrder ordered).orElse (InOrder.empty ?_)
  · unfold traitUse
    refine .pass fun _ => .pass fun _ => .pass fun _ => .pass fun _ => .pass fun _ => ?_
    exact .pass fun _ => .give fun _ _ => rfl
  · unfold enumCase
    refine .pass fun _ => .pass fun _ => .pass fun _ => .pass fun _ => .pass fun _ => ?_
    exact .pass fun _ => .pass fun _ => .give fun _ _ => rfl
  · unfold classConstant
    refine .pass fun _ => .pass fun _ => .pass fun _ => .pass fun _ => .pass fun _ => ?_
    exact .pass fun _ => .pass fun _ => .pass fun _ => .give fun _ _ => rfl
  · unfold property
    refine .pass fun _ => .pass fun _ => ?_
    split
    · have never : Gives start failure fun (_ : PUnit) _ => False := .fail
      exact never.next nofun
    · exact .pass fun _ => .pass fun _ => .pass fun _ => .pass fun _ => .give fun _ _ => rfl

theorem classBody_inOrder (ordered : nested.InOrder start) :
    InOrder start (classBody nested) Stmt.methodStatements := by
  have joined : ∀ members : List (Member Expr Stmt),
      (members.flatMap fun member => Stmt.methodStatements [member]) =
        Stmt.methodStatements members := by
    intro members
    simp [Stmt.methodStatements]
  have members : InOrder start (do
      let members ← many nested.limit do
        let member ← member nested
        skip
        return member
      mark "\x7d"
      return members) _ :=
    (InOrder.many (fun _ reached => (member_inOrder (ordered.later reached)).followed) _).followed
  refine .pass fun _ => .pass fun _ => members.weaken fun found later _ spread => ?_
  simpa only [joined] using spread

/-! Tags and bodies -/

theorem inlineHtml_inOrder : InOrder start inlineHtml fun statement => [statement] :=
  .leaf fun _ => .pass fun _ => .give fun _ _ => ⟨rfl, rfl⟩

theorem openingTag_inOrder : InOrder start openingTag fun statement => [statement] :=
  .leaf fun _ => .pass fun _ => .give fun _ _ => ⟨rfl, rfl⟩

theorem perhaps_inOrder {reader : Reader Stmt}
    (ordered : InOrder start reader fun statement => [statement]) :
    InOrder start (perhaps reader) Option.toList := by
  refine ordered.perhaps.weaken fun found later _ spread => ?_
  simpa only [List.flatMap_singleton'] using spread

theorem closingTag_inOrder : InOrder start closingTag id := by
  unfold closingTag
  refine .here fun place reached => .pass fun _ => ?_
  refine (perhaps_inOrder inlineHtml_inOrder).bind fun html middle _ before => ?_
  refine (perhaps_inOrder openingTag_inOrder).bind fun tag last _ behind => ?_
  refine .give fun later moved => ?_
  have closing : Spread start.position [.closingTag place.span] place.position :=
    Spread.node_iff.mpr ⟨reached.position_le, Spread.nil (Nat.le_refl _)⟩
  exact ((closing.append before).append behind).upTo moved

theorem asStatement_spread {span : Span} {low high : Nat} {statements : List Stmt}
    (below : span.position ≤ low) (spread : Spread low statements high) :
    Spread span.position [asStatement span statements] high := by
  unfold asStatement
  split
  · exact spread.widen below (Nat.le_refl high)
  · exact Spread.node_iff.mpr ⟨Nat.le_refl _, spread.widen below (Nat.le_refl high)⟩

theorem loopBody_inOrder (ordered : nested.InOrder start) (word : String) :
    InOrder start (loopBody word start.span nested) Body.statements := by
  unfold loopBody colonBody
  refine .orElse (.pass fun _ => .pass fun _ => .pass fun _ => ?_) ?_
  · refine (statementList_inOrder ordered).bind fun statements place _ spread => ?_
    refine .pass fun _ => .pass fun _ => .pass fun _ => .give fun later moved => ?_
    exact spread.upTo moved
  · refine (ordered start (Cursor.Reaches.refl start)).bind fun statements place _ spread => ?_
    refine .give fun later moved => ?_
    exact (asStatement_spread (Nat.le_refl _) spread).upTo moved

/-! Conditional statements -/

theorem elseIfClause_inOrder (ordered : nested.InOrder start) :
    InOrder start (elseIfClause nested) fun clause => clause.body.statements := by
  unfold elseIfClause
  refine .pass fun _ => .here fun place reached => .pass fun _ => .pass fun _ => ?_
  refine .pass fun _ => .pass fun _ => ?_
  refine (ordered place reached).bind fun statements last _ spread => .give fun later moved => ?_
  exact ((asStatement_spread (Nat.le_refl _) spread).since reached).upTo moved

theorem elseClause_inOrder (ordered : nested.InOrder start) :
    InOrder start (elseClause nested) fun clause => clause.body.statements := by
  unfold elseClause
  refine .pass fun _ => .here fun place reached => .pass fun _ => .pass fun _ => ?_
  refine (ordered place reached).bind fun statements last _ spread => .give fun later moved => ?_
  exact ((asStatement_spread (Nat.le_refl _) spread).since reached).upTo moved

theorem elseIfColonClause_inOrder (ordered : nested.InOrder start) :
    InOrder start (elseIfColonClause nested) fun clause => clause.body.statements := by
  unfold elseIfColonClause
  refine .pass fun _ => .pass fun _ => .pass fun _ => .pass fun _ => .pass fun _ => ?_
  refine .pass fun _ => .pass fun _ => .pass fun _ => ?_
  refine (statementList_inOrder ordered).bind fun statements place _ spread => ?_
  exact .give fun later moved => spread.upTo moved

theorem elseColonClause_inOrder (ordered : nested.InOrder start) :
    InOrder start (elseColonClause nested) fun clause => clause.body.statements := by
  unfold elseColonClause
  refine .pass fun _ => .pass fun _ => .pass fun _ => .pass fun _ => .pass fun _ => ?_
  refine .pass fun _ => (statementList_inOrder ordered).bind fun statements place _ spread => ?_
  exact .give fun later moved => spread.upTo moved

theorem ifColon_inOrder (ordered : nested.InOrder start) (span : Span) (condition : Expr) :
    Gives start (ifColon nested span condition) fun statement later =>
      statement.span = span ∧ Spread start.position statement.children later.position := by
  unfold ifColon
  refine .pass fun _ => .pass fun _ => .pass fun _ => ?_
  refine (statementList_inOrder ordered).bind fun statements second reached body => ?_
  have ordered := ordered.later reached
  have clauses := InOrder.many
    (fun place reached => elseIfColonClause_inOrder (ordered.later reached)) nested.limit
  refine clauses.bind fun elseIfs third reached elseIfsSpread => ?_
  have otherwise := (elseColonClause_inOrder (ordered.later reached)).perhaps
  refine otherwise.bind fun otherwise last _ elseSpread => ?_
  refine .pass fun _ => .pass fun _ => .pass fun _ => .give fun later moved => ⟨rfl, ?_⟩
  exact ((body.append elseIfsSpread).append elseSpread).upTo moved

theorem ifPlain_inOrder (ordered : nested.InOrder start) (span : Span) (condition : Expr) :
    Gives start (ifPlain nested span condition) fun statement later =>
      statement.span = span ∧ Spread start.position statement.children later.position := by
  unfold ifPlain
  refine .here fun first reached => ?_
  refine (ordered first reached).bind fun statements second further body => ?_
  -- A block made for the body stands where the body does, behind the condition.
  have body := (asStatement_spread (Nat.le_refl _) body).since reached
  have ordered := ordered.later (reached.trans further)
  have clauses := InOrder.many
    (fun place reached => elseIfClause_inOrder (ordered.later reached)) nested.limit
  refine clauses.bind fun elseIfs third reached elseIfsSpread => ?_
  have otherwise := (elseClause_inOrder (ordered.later reached)).perhaps
  refine otherwise.bind fun otherwise last _ elseSpread => .give fun later moved => ⟨rfl, ?_⟩
  exact ((body.append elseIfsSpread).append elseSpread).upTo moved

theorem ifStatement_inOrder (ordered : nested.InOrder start) :
    InOrder start (ifStatement nested) fun statement => [statement] := by
  unfold ifStatement
  refine .node fun place reached => ?_
  have ordered := ordered.later reached
  refine .pass fun _ => .pass fun _ => .pass fun condition => .pass fun _ => ?_
  exact (ifColon_inOrder ordered place.span condition).orElse
    (ifPlain_inOrder ordered place.span condition)

theorem switchCase_inOrder (ordered : nested.InOrder start) :
    InOrder start (switchCase nested) SwitchCase.statements := by
  unfold switchCase
  refine .pass fun _ => .pass fun _ => .pass fun _ => .pass fun _ => .pass fun _ => ?_
  refine (statementList_inOrder ordered).bind fun statements place _ spread => ?_
  exact .give fun later moved => spread.upTo moved

theorem switchCases_inOrder (ordered : nested.InOrder start) :
    InOrder start (switchCases nested) fun cases => cases.flatMap SwitchCase.statements :=
  .pass fun _ => .pass fun _ =>
    InOrder.many (fun _ reached => switchCase_inOrder (ordered.later reached)) nested.limit

theorem switchStatement_inOrder (ordered : nested.InOrder start) :
    InOrder start (switchStatement nested) fun statement => [statement] := by
  unfold switchStatement
  refine .node fun place reached => .pass fun _ => .pass fun _ => .pass fun subject => ?_
  have cases := switchCases_inOrder (ordered.later reached)
  have braces : InOrder place (do
      mark "\x7b"
      let cases ← switchCases nested
      mark "\x7d"
      return cases) _ := .pass fun _ => cases.followed
  have colon : InOrder place (do
      mark ":"
      let cases ← switchCases nested
      keyword "endswitch"
      skip
      terminator
      return cases) fun cases => cases.flatMap SwitchCase.statements := by
    refine .pass fun _ => cases.bind fun cases last _ spread => ?_
    exact .pass fun _ => .pass fun _ => .pass fun _ => .give fun later moved => spread.upTo moved
  refine .pass fun _ => (braces.orElse colon).bind fun cases last _ spread => ?_
  exact .give fun later moved => ⟨rfl, spread.upTo moved⟩

/-! Loops -/

theorem whileStatement_inOrder (ordered : nested.InOrder start) :
    InOrder start (whileStatement nested) fun statement => [statement] := by
  unfold whileStatement
  refine .node fun place reached => .pass fun _ => .pass fun _ => .pass fun _ => .pass fun _ => ?_
  refine (loopBody_inOrder (ordered.later reached) _).bind fun body last _ spread => ?_
  exact .give fun later moved => ⟨rfl, spread.upTo moved⟩

theorem doWhileStatement_inOrder (ordered : nested.InOrder start) :
    InOrder start (doWhileStatement nested) fun statement => [statement] := by
  unfold doWhileStatement
  refine .node fun place reached => .pass fun _ => .pass fun _ => ?_
  refine (ordered place reached).bind fun statements last _ spread => ?_
  refine .pass fun _ => .pass fun _ => .pass fun _ => .pass fun _ => .pass fun _ => ?_
  refine .pass fun _ => .give fun later moved => ⟨rfl, ?_⟩
  exact (asStatement_spread (Nat.le_refl _) spread).upTo moved

theorem forStatement_inOrder (ordered : nested.InOrder start) :
    InOrder start (forStatement nested) fun statement => [statement] := by
  unfold forStatement
  refine .node fun place reached => .pass fun _ => .pass fun _ => .pass fun _ => .pass fun _ => ?_
  refine .pass fun _ => .pass fun _ => .pass fun _ => .pass fun _ => .pass fun _ => ?_
  refine .pass fun _ => .pass fun _ => .pass fun _ => .pass fun _ => .pass fun _ => ?_
  refine .pass fun _ => .pass fun _ => ?_
  refine (loopBody_inOrder (ordered.later reached) _).bind fun body last _ spread => ?_
  exact .give fun later moved => ⟨rfl, spread.upTo moved⟩

theorem foreachStatement_inOrder (ordered : nested.InOrder start) :
    InOrder start (foreachStatement nested) fun statement => [statement] := by
  unfold foreachStatement
  refine .node fun place reached => .pass fun _ => .pass fun _ => .pass fun _ => .pass fun _ => ?_
  refine .pass fun _ => .pass fun _ => .pass fun _ => .pass fun _ => .pass fun _ => ?_
  refine .pass fun _ => .pass fun _ => .pass fun _ => ?_
  refine (loopBody_inOrder (ordered.later reached) _).bind fun body last _ spread => ?_
  exact .give fun later moved => ⟨rfl, spread.upTo moved⟩

/-! Exceptions -/

theorem catchClause_inOrder (ordered : nested.InOrder start) :
    InOrder start (catchClause nested) fun clause => clause.block.statements := by
  unfold catchClause
  refine .pass fun _ => .pass fun _ => .pass fun _ => .pass fun _ => .pass fun _ => ?_
  refine .pass fun _ => .pass fun _ => .pass fun _ => .pass fun _ => .pass fun _ => ?_
  refine .pass fun _ => .pass fun _ => .pass fun _ => ?_
  refine (blockStatements_inOrder ordered).bind fun block place _ spread => ?_
  exact .give fun later moved => spread.upTo moved

theorem tryStatement_inOrder (ordered : nested.InOrder start) :
    InOrder start (tryStatement nested) fun statement => [statement] := by
  unfold tryStatement
  refine .node fun place reached => .pass fun _ => .pass fun _ => ?_
  have ordered := ordered.later reached
  refine (blockStatements_inOrder ordered).bind fun block second reached blockSpread => ?_
  have ordered := ordered.later reached
  have clauses := InOrder.many
    (fun place reached => catchClause_inOrder (ordered.later reached)) nested.limit
  refine clauses.bind fun catches third reached catchesSpread => ?_
  have last : InOrder third (finallyClause nested) Block.statements :=
    .pass fun _ => .pass fun _ => .pass fun _ => blockStatements_inOrder (ordered.later reached)
  refine last.perhaps.bind fun finallyBlock last _ finallySpread => ?_
  refine .give fun later moved => ⟨rfl, ?_⟩
  exact ((blockSpread.append catchesSpread).append finallySpread).upTo moved

/-! Simple statements -/

theorem wordStatement_inOrder (word : String) {build : Span → Option Expr → Stmt}
    (shape : ∀ span value, (build span value).span = span ∧ (build span value).children = []) :
    InOrder start (wordStatement word build nested) fun statement => [statement] := by
  unfold wordStatement
  refine .leaf fun span => .pass fun _ => .pass fun value => .pass fun _ => .pass fun _ => ?_
  exact .give fun _ _ => shape span value

theorem echoStatement_inOrder :
    InOrder start (echoStatement nested) fun statement => [statement] := by
  unfold echoStatement
  refine .leaf fun span => .pass fun _ => .pass fun _ => .pass fun _ => .pass fun _ => ?_
  exact .pass fun _ => .give fun _ _ => ⟨rfl, rfl⟩

theorem globalStatement_inOrder :
    InOrder start (globalStatement nested) fun statement => [statement] := by
  unfold globalStatement
  refine .leaf fun span => .pass fun _ => .pass fun _ => .pass fun _ => .pass fun _ => ?_
  exact .pass fun _ => .give fun _ _ => ⟨rfl, rfl⟩

theorem staticStatement_inOrder :
    InOrder start (staticStatement nested) fun statement => [statement] := by
  unfold staticStatement
  refine .leaf fun span => .pass fun _ => .pass fun _ => .pass fun _ => .pass fun _ => ?_
  exact .pass fun _ => .give fun _ _ => ⟨rfl, rfl⟩

theorem constStatement_inOrder :
    InOrder start (constStatement nested) fun statement => [statement] := by
  unfold constStatement
  refine .leaf fun span => .pass fun _ => .pass fun _ => .pass fun _ => .pass fun _ => ?_
  exact .pass fun _ => .give fun _ _ => ⟨rfl, rfl⟩

theorem noopStatement_inOrder : InOrder start noopStatement fun statement => [statement] :=
  .leaf fun _ => .pass fun _ => .give fun _ _ => ⟨rfl, rfl⟩

theorem expressionStatement_inOrder :
    InOrder start (expressionStatement nested) fun statement => [statement] := by
  unfold expressionStatement
  refine .leaf fun span => .pass fun _ => .pass fun _ => .pass fun _ => ?_
  exact .give fun _ _ => ⟨rfl, rfl⟩

theorem useStatement_inOrder :
    InOrder start (useStatement nested) fun statement => [statement] := by
  unfold useStatement
  refine .leaf fun span => .pass fun _ => .pass fun _ => .pass fun _ => .pass fun _ => ?_
  exact .pass fun _ => .pass fun _ => .give fun _ _ => ⟨rfl, rfl⟩

/-- A function keeps its body to itself. -/
theorem functionDeclaration_inOrder :
    InOrder start (functionDeclaration nested) fun statement => [statement] := by
  unfold functionDeclaration
  refine .leaf fun span => .pass fun _ => .pass fun _ => .pass fun _ => .pass fun _ => ?_
  refine .pass fun _ => .pass fun _ => .pass fun _ => .pass fun _ => .pass fun _ => ?_
  exact .pass fun _ => .give fun _ _ => ⟨rfl, rfl⟩

/-! Declarations and namespaces -/

theorem declareStatement_inOrder (ordered : nested.InOrder start) :
    InOrder start (declareStatement nested) fun statement => [statement] := by
  unfold declareStatement
  refine .node fun place reached => .pass fun _ => .pass fun _ => .pass fun _ => .pass fun _ => ?_
  refine .pass fun _ => .pass fun _ => .pass fun _ => .pass fun _ => ?_
  refine (bodyOrEnd_inOrder (ordered.later reached)).bind fun body last _ spread => ?_
  exact .give fun later moved => ⟨rfl, spread.upTo moved⟩

theorem bracedNamespace_inOrder (ordered : nested.InOrder start) :
    InOrder start (bracedNamespace nested) fun statement => [statement] := by
  unfold bracedNamespace
  refine .node fun place reached => .pass fun _ => .pass fun _ => .pass fun _ => .pass fun _ => ?_
  refine .pass fun _ => ?_
  refine (statementList_inOrder (ordered.later reached)).bind fun statements last _ spread => ?_
  exact .pass fun _ => .give fun later moved => ⟨rfl, spread.upTo moved⟩

theorem unbracedNamespace_inOrder (ordered : nested.InOrder start) :
    InOrder start (unbracedNamespace nested) fun statement => [statement] := by
  unfold unbracedNamespace
  refine .node fun place reached => .pass fun _ => .pass fun _ => .pass fun _ => .pass fun _ => ?_
  refine .pass fun _ => .pass fun _ => ?_
  have ordered := ordered.later reached
  have group : ∀ further, place.Reaches further → InOrder further (do
      absent namespaceStart
      let statements ← nested.statement
      skip
      return statements) id :=
    fun further moved => .pass fun _ => (ordered further moved).followed
  refine (InOrder.many group _).bind fun groups last _ spread => .give fun later moved => ⟨rfl, ?_⟩
  simp only [List.flatMap_id] at spread
  exact spread.upTo moved

theorem classDeclaration_inOrder (ordered : nested.InOrder start) :
    InOrder start (classDeclaration nested) fun statement => [statement] := by
  unfold classDeclaration
  refine .node fun place reached => .pass fun _ => .pass fun _ => .pass fun _ => .pass fun _ => ?_
  refine .pass fun _ => .pass fun _ => .pass fun _ => .pass fun _ => ?_
  refine (classBody_inOrder (ordered.later reached)).bind fun members last _ spread => ?_
  exact .give fun later moved => ⟨rfl, spread.upTo moved⟩

theorem interfaceDeclaration_inOrder (ordered : nested.InOrder start) :
    InOrder start (interfaceDeclaration nested) fun statement => [statement] := by
  unfold interfaceDeclaration
  refine .node fun place reached => .pass fun _ => .pass fun _ => .pass fun _ => .pass fun _ => ?_
  refine .pass fun _ => .pass fun _ => ?_
  refine (classBody_inOrder (ordered.later reached)).bind fun members last _ spread => ?_
  exact .give fun later moved => ⟨rfl, spread.upTo moved⟩

theorem traitDeclaration_inOrder (ordered : nested.InOrder start) :
    InOrder start (traitDeclaration nested) fun statement => [statement] := by
  unfold traitDeclaration
  refine .node fun place reached => .pass fun _ => .pass fun _ => .pass fun _ => .pass fun _ => ?_
  refine .pass fun _ => ?_
  refine (classBody_inOrder (ordered.later reached)).bind fun members last _ spread => ?_
  exact .give fun later moved => ⟨rfl, spread.upTo moved⟩

theorem enumDeclaration_inOrder (ordered : nested.InOrder start) :
    InOrder start (enumDeclaration nested) fun statement => [statement] := by
  unfold enumDeclaration
  refine .node fun place reached => .pass fun _ => .pass fun _ => .pass fun _ => .pass fun _ => ?_
  refine .pass fun _ => .pass fun _ => .pass fun _ => ?_
  refine (classBody_inOrder (ordered.later reached)).bind fun members last _ spread => ?_
  exact .give fun later moved => ⟨rfl, spread.upTo moved⟩

/-! All statements -/

theorem statement_inOrder (ordered : nested.InOrder start) :
    InOrder start (statement nested) id := by
  refine .orElse (.lone (.map (block_inOrder ordered))) <|
    closingTag_inOrder.orElse (.firstOf ?_)
  simp only [List.forall_mem_cons]
  exact ⟨ifStatement_inOrder ordered, whileStatement_inOrder ordered,
    doWhileStatement_inOrder ordered, forStatement_inOrder ordered,
    foreachStatement_inOrder ordered, switchStatement_inOrder ordered,
    tryStatement_inOrder ordered, wordStatement_inOrder _ fun _ _ => ⟨rfl, rfl⟩,
    echoStatement_inOrder, wordStatement_inOrder _ fun _ _ => ⟨rfl, rfl⟩,
    wordStatement_inOrder _ fun _ _ => ⟨rfl, rfl⟩, globalStatement_inOrder,
    staticStatement_inOrder, bracedNamespace_inOrder ordered, unbracedNamespace_inOrder ordered,
    useStatement_inOrder, constStatement_inOrder, declareStatement_inOrder ordered,
    functionDeclaration_inOrder, classDeclaration_inOrder ordered,
    interfaceDeclaration_inOrder ordered, traitDeclaration_inOrder ordered,
    enumDeclaration_inOrder ordered, noopStatement_inOrder, expressionStatement_inOrder, nofun⟩

theorem program_inOrder (ordered : nested.InOrder start) : InOrder start (program nested) id := by
  unfold program
  refine (perhaps_inOrder inlineHtml_inOrder).bind fun html second reached before => ?_
  refine (perhaps_inOrder openingTag_inOrder).bind fun tag third further behind => .pass fun _ => ?_
  have ordered := ordered.later (reached.trans further)
  refine (statementList_inOrder ordered).bind fun statements last _ spread => ?_
  exact .give fun later moved => ((before.append behind).append spread).upTo moved

end Reader

/-- Nested statements rise from the place before them to the place behind them. -/
def Contract.inOrder : Contract where
  hint _ := True
  unary _ := True
  binary _ := True
  ternary _ := True
  expression _ := True
  statement passage :=
    Spread passage.before.span.position passage.value passage.behind.span.position

theorem Nested.held_inOrder {start : Cursor} (limit : Nat)
    (held : Contract.inOrder.HeldAt start) : (Nested.held limit).InOrder start := by
  intro place reached
  refine Reader.Gives.part (fun further moved parts member =>
    (held further (reached.trans moved) parts member).statement) ?_
  intro cursor statements later _ moved _ spread
  exact Spread.since spread moved

theorem Contract.inOrder_metBy {text : List Char} (limit : Nat) :
    Contract.inOrder.MetBy (Nested.held limit) text where
  hint _ _ _ _ _ _ := trivial
  unary _ _ _ _ _ _ := trivial
  binary _ _ _ _ _ _ := trivial
  ternary _ _ _ _ _ _ := trivial
  expression _ _ _ _ _ _ := trivial
  statement _ held _ _ _ read :=
    Reader.statement_inOrder (Nested.held_inOrder limit held) (Cursor.Reaches.refl _) read

/-- The flattened statements of a text come in the order in which they stand in it. -/
theorem parse_flatten_pairwise {text : String} {statements : List Stmt}
    (parsed : parse text = .ok statements) :
    (statements.flatMap Stmt.flatten).Pairwise fun first second =>
      first.span.position ≤ second.span.position := by
  have spread : ∃ high, Spread 0 statements high := by
    refine Contract.parsed (fun statements => ∃ high, Spread 0 statements high)
      Contract.inOrder_metBy ?_ parsed
    intro limit parts held
    exact (Reader.program_inOrder (Nested.held_inOrder limit held)).weaken
      fun _ later _ spread => ⟨later.position, spread⟩
  obtain ⟨high, spread⟩ := spread
  exact List.pairwise_map.mp spread.pairwise

/-- A closing tag with the text behind it is put into a block that starts with its loop. -/
theorem parse_flatten_pairwise_loop :
    parse "<?php while ($a) ?>b" = .ok [.openingTag {} "<?php",
      .whileLoop ⟨1, 7, 6⟩ (.var ⟨1, 14, 13⟩ "$a") (.single (.block ⟨⟨1, 7, 6⟩,
        [.closingTag ⟨1, 18, 17⟩, .inlineHtml ⟨1, 20, 19⟩ "b"]⟩))] ∧
    ([.openingTag {} "<?php",
      .whileLoop ⟨1, 7, 6⟩ (.var ⟨1, 14, 13⟩ "$a") (.single (.block ⟨⟨1, 7, 6⟩,
        [.closingTag ⟨1, 18, 17⟩, .inlineHtml ⟨1, 20, 19⟩ "b"]⟩))].flatMap
      Stmt.flatten).Pairwise fun first second => first.span.position ≤ second.span.position := by
  have parsed : parse "<?php while ($a) ?>b" = .ok [.openingTag {} "<?php",
      .whileLoop ⟨1, 7, 6⟩ (.var ⟨1, 14, 13⟩ "$a") (.single (.block ⟨⟨1, 7, 6⟩,
        [.closingTag ⟨1, 18, 17⟩, .inlineHtml ⟨1, 20, 19⟩ "b"]⟩))] := rfl
  exact ⟨parsed, parse_flatten_pairwise parsed⟩

end PhpAudit
