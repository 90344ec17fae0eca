import PhpAudit.Proofs.LoopHeaders

/-!
Further clauses of conditional statements without colons. A statement that ends in a conditional
which could take one more clause has tried to take it where it ends; the conditional around it tries
the same clause at the same place, and so never finds one there.
-/

namespace PhpAudit

/-- The statement ends in a conditional without colons that has no last clause. -/
inductive Stmt.Open : Stmt → Prop where
  | withoutElse {span condition body elseIfs} :
      Open (.ifElse span condition (.single body) elseIfs none)
  | inElse {span condition body elseIfs place last} (inner : Open last) :
      Open (.ifElse span condition (.single body) elseIfs (some ⟨place, .single last⟩))
  | inWhile {span condition body} (inner : Open body) :
      Open (.whileLoop span condition (.single body))
  | inFor {span initializers conditions steps body} (inner : Open body) :
      Open (.forLoop span initializers conditions steps (.single body))
  | inForeach {span items key marked body target} (inner : Open body) :
      Open (.foreachLoop span items key marked (.single body) target)

def Body.Open : Body Stmt → Prop
  | .single statement => statement.Open
  | .colon _ _ => False

/-- The bodies of a conditional behind which another clause follows. -/
def followedBodies : Body Stmt → List (ElseIf Expr Stmt) → Option (Else Stmt) → List (Body Stmt)
  | _, [], none => []
  | body, [], some _ => [body]
  | body, clause :: rest, otherwise => body :: followedBodies clause.body rest otherwise

theorem mem_followedBodies {body preceding : Body Stmt} {elseIfs : List (ElseIf Expr Stmt)}
    {otherwise : Option (Else Stmt)} (member : preceding ∈ followedBodies body elseIfs otherwise) :
    preceding = body ∨ ∃ clause ∈ elseIfs, preceding = clause.body := by
  induction elseIfs generalizing body with
  | nil =>
      cases otherwise with
      | none => cases member
      | some clause => exact .inl (List.mem_singleton.mp member)
  | cons clause rest ih =>
      rcases List.mem_cons.mp member with same | later
      · exact .inl same
      · rcases ih later with first | ⟨found, inside, same⟩
        · exact .inr ⟨clause, List.mem_cons_self, first⟩
        · exact .inr ⟨found, List.mem_cons_of_mem clause inside, same⟩

namespace Cursor

variable {text : List Char} {cursor later : Cursor}

/-- The cursor stands in a text and has the parts of every place from there on. -/
def OnText (text : List Char) (cursor : Cursor) : Prop :=
  ∃ offset ≤ text.length, cursor.StandsAt text offset

theorem OnText.reaches (on : cursor.OnText text) (reached : cursor.Reaches later) :
    later.OnText text := by
  obtain ⟨offset, bound, stands⟩ := on
  refine ⟨later.offset, ?_, stands.reaches reached⟩
  obtain ⟨misread, rfl⟩ := stands
  obtain ⟨passed, passes⟩ := reached
  have size := congrArg List.length passes.rest
  have moved := passes.offset
  simp only [onTable, List.length_drop, List.length_append] at size moved
  omega

theorem OnText.offset_le (on : cursor.OnText text) : cursor.offset ≤ text.length := by
  obtain ⟨offset, bound, misread, rfl⟩ := on
  exact bound

end Cursor

namespace Reader

variable {First Value : Type} {text : List Char} {start cursor later : Cursor}

/-- Two cursors of a text with the same text ahead differ by their notes at most. -/
theorem Fails.elsewhere {reader : Reader Value} (fails : reader.Fails cursor)
    (on : cursor.OnText text) (other : later.OnText text) (same : later.rest = cursor.rest) :
    reader.Fails later := by
  obtain ⟨first, firstBound, noted, rfl⟩ := on
  obtain ⟨second, secondBound, misread, rfl⟩ := other
  have place : second = first := by
    have size := congrArg List.length same
    simp only [Cursor.onTable, List.length_drop] at size
    omega
  subst place
  have blind := reader.blind (Cursor.onTable (Nested.ofText text) text second false)
  change reader.run (Cursor.onTable _ text second true) = _ at blind
  have clean : reader.run (Cursor.onTable (Nested.ofText text) text second false) = none := by
    cases noted with
    | false => exact fails
    | true =>
        rw [show reader.run (Cursor.onTable _ text second true) = none from fails] at blind
        exact Option.map_eq_none_iff.mp blind.symm
  cases misread with
  | false => exact clean
  | true =>
      rw [clean] at blind
      exact blind

theorem run_perhaps_none {reader : Reader Value}
    (read : (perhaps reader).run cursor = some (none, later)) :
    reader.Fails cursor ∧ later = cursor := by
  cases tried : reader.run cursor with
  | none =>
      rw [Fails.perhaps tried] at read
      cases read
      exact ⟨tried, rfl⟩
  | some found =>
      have taken : (some <$> reader).run cursor = some (some found.1, found.2) :=
        run_bind_of_some tried
      change (choose (some <$> reader) fun _ => pure none).run cursor = _ at read
      simp only [choose, taken] at read
      cases read

/-- Behind a lexeme that takes a character, the parts of the cursor's own place are there. -/
theorem token_onText {rule : Lexeme} {nothing : Unit}
    (solid : ∀ {length}, rule cursor.rest = some length →
      0 < length ∧ length ≤ cursor.rest.length)
    (within : cursor.Within (Nested.ofText text) text)
    (read : (token rule).run cursor = some (nothing, later)) : later.OnText text := by
  simp only [token] at read
  split at read
  · rename_i length found
    cases read
    obtain ⟨positive, bound⟩ := solid found
    have stands := within.advance bound positive
    rw [within.rest, List.length_drop] at bound
    exact ⟨_, by omega, stands⟩
  · cases read

theorem keyword_onText {word : String} {nothing : Unit} (long : 0 < word.toList.length)
    (within : cursor.Within (Nested.ofText text) text)
    (read : (keyword word).run cursor = some (nothing, later)) : later.OnText text := by
  refine token_onText (fun found => ?_) within read
  obtain ⟨size, bound⟩ := Lexeme.keyword_length found
  exact ⟨by omega, bound⟩

/-! A repetition ends where its reader fails. -/

theorem exists_run_many (reader : Reader Value) (limit : Nat) (cursor : Cursor) :
    ∃ values later, (many limit reader).run cursor = some (values, later) := by
  induction limit generalizing cursor with
  | zero => exact ⟨[], cursor, rfl⟩
  | succ limit ih =>
      cases first : reader.run cursor with
      | none => exact ⟨[], cursor, Fails.many first (limit + 1)⟩
      | some found =>
          obtain ⟨values, later, rest⟩ := ih found.2
          exact ⟨found.1 :: values, later, run_many_some first rest⟩

/-- A reader that always moves on fails behind its repetition, unless the limit is reached. -/
theorem many_stops {reader : Reader Value} {values : List Value} {limit : Nat}
    (forward : ∀ {place value behind}, reader.run place = some (value, behind) →
      place.offset < behind.offset)
    (read : (many limit reader).run cursor = some (values, later)) :
    reader.Fails later ∨ cursor.offset + limit ≤ later.offset := by
  induction limit generalizing cursor values with
  | zero =>
      cases read
      exact .inr (Nat.le_refl _)
  | succ limit ih =>
      cases first : reader.run cursor with
      | none =>
          rw [Fails.many first] at read
          cases read
          exact .inl first
      | some found =>
          obtain ⟨others, behind, rest⟩ := exists_run_many reader limit found.2
          rw [run_many_some first rest] at read
          cases read
          have moved := forward first
          rcases ih rest with fails | full
          · exact .inl fails
          · exact .inr (by omega)

/-- What a reader gives is turned into something else at the same place. -/
theorem Gives.last {reader : Reader First} {function : First → Value}
    {result : Value → Cursor → Prop}
    (gives : Gives start reader fun value later => result (function value) later) :
    Gives start (reader >>= fun value => pure (function value)) result := by
  intro cursor value later reached read
  obtain ⟨first, middle, step, given⟩ := run_bind read
  cases given
  exact gives reached step

/-! The clauses that are tried behind a statement. -/

/-- No further clause of a conditional is read where the rest of the text is ahead. -/
def ElseRefused (text rest : List Char) : Prop :=
  ∀ cursor : Cursor, cursor.OnText text → cursor.rest = rest →
    (elseIfClause (Nested.ofText text)).Fails cursor ∧
      (elseClause (Nested.ofText text)).Fails cursor

theorem elseRefused_of_fails (on : cursor.OnText text)
    (elseIf : (elseIfClause (Nested.ofText text)).Fails cursor)
    (otherwise : (elseClause (Nested.ofText text)).Fails cursor) :
    ElseRefused text cursor.rest := by
  intro place placed same
  exact ⟨elseIf.elsewhere on placed same, otherwise.elsewhere on placed same⟩

/-- From a cursor on, no clause is read behind an open statement. -/
def StatementsTaken (text : List Char) (start : Cursor) : Prop :=
  Gives start (Nested.ofText text).statement fun statements later =>
    ∀ statement, statements = [statement] → statement.Open → ElseRefused text later.rest

theorem eq_singleton_of_open {span : Span} {statements : List Stmt}
    (isOpen : (asStatement span statements).Open) :
    statements = [asStatement span statements] := by
  unfold asStatement at isOpen ⊢
  split at isOpen
  · rfl
  · cases isOpen

theorem notOpen_before_last {rest : List Char} {body : Body Stmt} {otherwise : Option (Else Stmt)}
    (settled : body.Open → ElseRefused text rest)
    (last : otherwise ≠ none → ¬ ElseRefused text rest) :
    ∀ preceding ∈ followedBodies body [] otherwise, ¬ preceding.Open := by
  intro preceding member isOpen
  cases otherwise with
  | none => cases member
  | some clause =>
      cases List.mem_singleton.mp member
      exact last nofun (settled isOpen)

section Taken

variable (taken : StatementsTaken text start)

include taken

theorem asStatement_taken (span : Span) : Gives start (Nested.ofText text).statement
    fun statements later => (asStatement span statements).Open → ElseRefused text later.rest := by
  intro cursor statements later reached read isOpen
  exact taken reached read _ (eq_singleton_of_open isOpen) isOpen

theorem elseIfClause_taken : Gives start (elseIfClause (Nested.ofText text))
    fun clause later => clause.body.Open → ElseRefused text later.rest := by
  unfold elseIfClause
  refine .pass fun _ => .pass fun span => .pass fun _ => .pass fun _ => .pass fun condition => ?_
  exact .pass fun _ => .last (asStatement_taken taken span)

theorem elseClause_taken : Gives start (elseClause (Nested.ofText text))
    fun clause later => clause.body.Open → ElseRefused text later.rest := by
  unfold elseClause
  refine .pass fun _ => .pass fun span => .pass fun _ => .pass fun _ => ?_
  exact .last (asStatement_taken taken span)

theorem loopBody_taken (word : String) (span : Span) :
    Gives start (loopBody word span (Nested.ofText text))
      fun body later => body.Open → ElseRefused text later.rest := by
  refine .orElse ?_ (.last (asStatement_taken taken span))
  unfold colonBody
  refine .pass fun _ => .pass fun _ => .pass fun _ => .pass fun _ => .pass fun _ => ?_
  exact .pass fun _ => .pass fun _ => .give fun _ _ => False.elim

/-- Every body that is followed by another clause had its chance to take that clause. -/
theorem elseIfs_attached {limit : Nat} {body : Body Stmt} {elseIfs : List (ElseIf Expr Stmt)}
    {otherwise : Option (Else Stmt)} (reached : start.Reaches cursor) (on : cursor.OnText text)
    (settled : body.Open → ElseRefused text cursor.rest)
    (read : (many limit (elseIfClause (Nested.ofText text))).run cursor = some (elseIfs, later))
    (last : otherwise ≠ none → ¬ ElseRefused text later.rest) :
    ∀ preceding ∈ followedBodies body elseIfs otherwise, ¬ preceding.Open := by
  induction limit generalizing cursor body elseIfs with
  | zero =>
      cases read
      exact notOpen_before_last settled last
  | succ limit ih =>
      rcases run_many_succ read with ⟨rfl, rfl⟩ | ⟨clause, middle, others, rfl, first, rest⟩
      · exact notOpen_before_last settled last
      · have moves := (elseIfClause (Nested.ofText text)).moves first
        have here : ¬ body.Open := by
          intro isOpen
          have fails := (settled isOpen cursor on rfl).1
          rw [Fails, first] at fails
          cases fails
        have inner := ih (reached.trans moves) (on.reaches moves)
          (elseIfClause_taken taken reached first) rest
        intro preceding member
        rcases List.mem_cons.mp member with same | later
        · rw [same]
          exact here
        · exact inner preceding later

end Taken

theorem keyword_forward {word : String} {nothing : Unit} (long : 0 < word.toList.length)
    (read : (keyword word).run cursor = some (nothing, later)) : cursor.offset < later.offset := by
  simp only [keyword, token] at read
  split at read
  · rename_i length found
    cases read
    obtain ⟨size, bound⟩ := Lexeme.keyword_length found
    rw [Cursor.offset_advance bound]
    omega
  · cases read

theorem offset_le_of_run {reader : Reader Value} {value : Value}
    (read : reader.run cursor = some (value, later)) : cursor.offset ≤ later.offset := by
  obtain ⟨passed, passes⟩ := reader.moves read
  rw [passes.offset]
  exact Nat.le_add_right _ _

theorem elseIfClause_forward {nested : Nested} {clause : ElseIf Expr Stmt}
    (read : (elseIfClause nested).run cursor = some (clause, later)) :
    cursor.offset < later.offset := by
  unfold elseIfClause at read
  obtain ⟨_, atWord, skipped, read⟩ := run_bind read
  obtain ⟨_, _, located, read⟩ := run_bind read
  cases located
  obtain ⟨_, behindWord, word, read⟩ := run_bind read
  have before := offset_le_of_run skipped
  have passed := keyword_forward (by decide) word
  have behind := offset_le_of_run read
  omega

theorem ifPlain_attached {span : Span} {condition : Expr} {statement : Stmt}
    (taken : StatementsTaken text cursor) (on : cursor.OnText text)
    (read : (ifPlain (Nested.ofText text) span condition).run cursor = some (statement, later)) :
    (∃ body elseIfs otherwise,
      statement = .ifElse span condition body elseIfs otherwise ∧
      ∀ preceding ∈ followedBodies body elseIfs otherwise, ¬ preceding.Open) ∧
    (statement.Open → ElseRefused text later.rest) := by
  unfold ifPlain at read
  obtain ⟨place, _, located, read⟩ := run_bind read
  cases located
  obtain ⟨statements, behindBody, bodyRead, read⟩ := run_bind read
  obtain ⟨elseIfs, behindElseIfs, elseIfsRead, read⟩ := run_bind read
  obtain ⟨otherwise, behind, otherwiseRead, given⟩ := run_bind read
  cases given
  have toBody := (Nested.ofText text).statement.moves bodyRead
  have onBody := on.reaches toBody
  have toElseIfs := (many (Nested.ofText text).limit (elseIfClause (Nested.ofText text))).moves
    elseIfsRead
  have onElseIfs := onBody.reaches toElseIfs
  have settled := asStatement_taken taken cursor.span (Cursor.Reaches.refl cursor) bodyRead
  have attached : ∀ otherwise, (otherwise ≠ none → ¬ ElseRefused text behindElseIfs.rest) →
      ∀ preceding ∈ followedBodies (.single (asStatement cursor.span statements)) elseIfs otherwise,
        ¬ preceding.Open :=
    fun _ => elseIfs_attached taken toBody onBody settled elseIfsRead
  have stops : (elseIfClause (Nested.ofText text)).Fails behindElseIfs := by
    rcases many_stops elseIfClause_forward elseIfsRead with fails | full
    · exact fails
    · have limit : (Nested.ofText text).limit = text.length + 1 := rfl
      have bound := onElseIfs.offset_le
      omega
  cases otherwise with
  | none =>
      obtain ⟨fails, rfl⟩ := run_perhaps_none otherwiseRead
      refine ⟨⟨_, _, _, rfl, attached none (fun some => absurd rfl some)⟩, fun _ => ?_⟩
      exact elseRefused_of_fails onElseIfs stops fails
  | some clause =>
      rcases run_perhaps otherwiseRead with ⟨found, same, clauseRead⟩ | ⟨nothing, _⟩
      · cases same
        refine ⟨⟨_, _, _, rfl, attached (some clause) fun _ refused => ?_⟩, fun isOpen => ?_⟩
        · have fails := (refused behindElseIfs onElseIfs rfl).2
          rw [Fails, clauseRead] at fails
          cases fails
        · cases isOpen with
          | inElse inner => exact elseClause_taken taken (toBody.trans toElseIfs) clauseRead inner
      · cases nothing

theorem ifColon_attached {nested : Nested} {span : Span} {condition : Expr} :
    Gives start (ifColon nested span condition) fun statement _ =>
      (∃ body elseIfs otherwise, statement = .ifElse span condition body elseIfs otherwise ∧
        ∀ preceding ∈ followedBodies body elseIfs otherwise, ¬ preceding.Open) ∧
      ¬ statement.Open := by
  have clause : Gives start (elseIfColonClause nested) fun clause _ => ¬ clause.body.Open := by
    unfold elseIfColonClause
    refine .pass fun _ => .pass fun _ => .pass fun _ => .pass fun _ => .pass fun _ => ?_
    refine .pass fun _ => .pass fun _ => .pass fun _ => .pass fun _ => .give fun _ _ => ?_
    exact id
  unfold ifColon
  refine .pass fun colon => .pass fun _ => .pass fun _ => .pass fun statements => ?_
  refine (clause.each _).next fun elseIfs closed => .pass fun otherwise => ?_
  refine .pass fun _ => .pass fun _ => .pass fun _ => .give fun _ _ => ⟨⟨_, _, _, rfl, ?_⟩, nofun⟩
  intro preceding member
  rcases mem_followedBodies member with same | ⟨clause, found, same⟩
  · rw [same]
    exact id
  · rw [same]
    exact closed clause found

/-- No clause follows an open body of a conditional, and none is read behind a conditional that is
open itself. -/
theorem ifStatement_attached {statement : Stmt}
    (taken : ∀ {place : Cursor}, cursor.Reaches place → place.OnText text →
      StatementsTaken text place)
    (within : cursor.Within (Nested.ofText text) text)
    (read : (ifStatement (Nested.ofText text)).run cursor = some (statement, later)) :
    (∃ span condition body elseIfs otherwise,
      statement = .ifElse span condition body elseIfs otherwise ∧
      ∀ preceding ∈ followedBodies body elseIfs otherwise, ¬ preceding.Open) ∧
    (statement.Open → ElseRefused text later.rest) := by
  unfold ifStatement at read
  obtain ⟨span, _, located, read⟩ := run_bind read
  cases located
  obtain ⟨_, _, word, read⟩ := run_bind read
  obtain ⟨_, _, firstGap, read⟩ := run_bind read
  obtain ⟨condition, _, conditionRead, read⟩ := run_bind read
  obtain ⟨_, atBody, secondGap, read⟩ := run_bind read
  have behindWord := ((skip.moves firstGap).trans
    ((Reader.condition (Nested.ofText text)).moves conditionRead)).trans (skip.moves secondGap)
  have on := (keyword_onText (by decide) within word).reaches behindWord
  have reached := ((keyword "if").moves word).trans behindWord
  rcases run_orElse read with colon | plain
  · obtain ⟨attached, closed⟩ := ifColon_attached (Cursor.Reaches.refl atBody) colon
    exact ⟨⟨cursor.span, condition, attached⟩, fun isOpen => absurd isOpen closed⟩
  · obtain ⟨attached, settled⟩ := ifPlain_attached (taken reached on) on plain
    exact ⟨⟨cursor.span, condition, attached⟩, settled⟩

/-! Statements -/

theorem whileStatement_taken (taken : StatementsTaken text start) :
    Gives start (whileStatement (Nested.ofText text)) fun statement later =>
      statement.Open → ElseRefused text later.rest := by
  unfold whileStatement
  refine .pass fun span => .pass fun _ => .pass fun _ => .pass fun _ => .pass fun _ => .last ?_
  refine (loopBody_taken taken _ span).weaken fun body later _ refused isOpen => ?_
  cases isOpen with
  | inWhile inner => exact refused inner

theorem forStatement_taken (taken : StatementsTaken text start) :
    Gives start (forStatement (Nested.ofText text)) fun statement later =>
      statement.Open → ElseRefused text later.rest := by
  unfold forStatement
  refine .pass fun span => .pass fun _ => .pass fun _ => .pass fun _ => .pass fun _ => ?_
  refine .pass fun _ => .pass fun _ => .pass fun _ => .pass fun _ => .pass fun _ => ?_
  refine .pass fun _ => .pass fun _ => .pass fun _ => .pass fun _ => .pass fun _ => ?_
  refine .pass fun _ => .pass fun _ => .last ?_
  refine (loopBody_taken taken _ span).weaken fun body later _ refused isOpen => ?_
  cases isOpen with
  | inFor inner => exact refused inner

theorem foreachStatement_taken (taken : StatementsTaken text start) :
    Gives start (foreachStatement (Nested.ofText text)) fun statement later =>
      statement.Open → ElseRefused text later.rest := by
  unfold foreachStatement
  refine .pass fun span => .pass fun _ => .pass fun _ => .pass fun _ => .pass fun _ => ?_
  refine .pass fun _ => .pass fun _ => .pass fun _ => .pass fun _ => .pass fun target => ?_
  refine .pass fun _ => .pass fun _ => .pass fun _ => .last ?_
  refine (loopBody_taken taken _ span).weaken fun body later _ refused isOpen => ?_
  cases isOpen with
  | inForeach inner => exact refused inner

theorem ifStatement_taken (taken : StatementsTaken text start)
    (within : start.Within (Nested.ofText text) text) :
    Gives start (ifStatement (Nested.ofText text)) fun statement later =>
      statement.Open → ElseRefused text later.rest := by
  intro cursor statement later reached read
  have inner : ∀ {place : Cursor}, cursor.Reaches place → place.OnText text →
      StatementsTaken text place := fun further _ => taken.later (reached.trans further)
  exact (ifStatement_attached inner (within.reaches reached) read).2

/-- The statements that end in no other statement, or in one behind which a word follows. -/
def closedStatements : List (Nested → Reader Stmt) :=
  [doWhileStatement, switchStatement, tryStatement, wordStatement "return" .returnValue,
    echoStatement, wordStatement "break" .breakOut, wordStatement "continue" .continueOn,
    globalStatement, staticStatement, bracedNamespace, unbracedNamespace, useStatement,
    constStatement, declareStatement, functionDeclaration, classDeclaration, interfaceDeclaration,
    traitDeclaration, enumDeclaration, fun _ => noopStatement, expressionStatement]

theorem closedStatements_closed (nested : Nested) :
    ∀ reader ∈ closedStatements, Gives start (reader nested) fun statement _ =>
      ¬ statement.Open := by
  simp only [closedStatements, List.forall_mem_cons, doWhileStatement, switchStatement,
    tryStatement, wordStatement, echoStatement, globalStatement, staticStatement, bracedNamespace,
    unbracedNamespace, useStatement, constStatement, declareStatement, functionDeclaration,
    classDeclaration, interfaceDeclaration, traitDeclaration, enumDeclaration, noopStatement,
    expressionStatement]
  refine ⟨?_, ?_, ?_, ?_, ?_, ?_, ?_, ?_, ?_, ?_, ?_, ?_, ?_, ?_, ?_, ?_, ?_, ?_, ?_, ?_, ?_, nofun⟩
  all_goals
    repeat refine .pass fun _ => ?_
    exact .give fun _ _ => nofun

theorem closingTag_notLone : Gives start closingTag fun statements _ =>
    ∀ statement, statements = [statement] → ¬ statement.Open := by
  unfold closingTag
  refine .pass fun span => .pass fun _ => .pass fun html => .pass fun tag => .give fun _ _ => ?_
  rintro statement same
  cases (List.cons.inj same).1
  exact nofun

theorem statement_taken (taken : StatementsTaken text start)
    (within : start.Within (Nested.ofText text) text) :
    Gives start (statement (Nested.ofText text)) fun statements later =>
      ∀ statement, statements = [statement] → statement.Open → ElseRefused text later.rest := by
  have lone : ∀ {reader : Reader Stmt}, (Gives start reader fun statement later =>
      statement.Open → ElseRefused text later.rest) →
      Gives start reader fun found later => ∀ statement, [found] = [statement] →
        statement.Open → ElseRefused text later.rest := by
    intro reader gives
    refine gives.weaken fun found later _ refused statement same => ?_
    cases same
    exact refused
  have closed : ∀ reader ∈ closedStatements, Gives start (reader (Nested.ofText text))
      fun found later => ∀ statement, [found] = [statement] → statement.Open →
        ElseRefused text later.rest := by
    intro reader member
    exact lone ((closedStatements_closed _ reader member).weaken fun _ _ _ notOpen isOpen =>
      absurd isOpen notOpen)
  obtain ⟨doWhile, others⟩ := List.forall_mem_cons.mp closed
  refine .orElse (.lone (lone (.map ?_))) <| .orElse ?_ (.firstOf ?_)
  · intro _ _ _ _ _ isOpen
    cases isOpen
  · exact closingTag_notLone.weaken fun _ _ _ notOpen statement same isOpen =>
      absurd isOpen (notOpen statement same)
  · simp only [List.forall_mem_cons] at others ⊢
    exact ⟨lone (ifStatement_taken taken within), lone (whileStatement_taken taken), doWhile,
      lone (forStatement_taken taken), lone (foreachStatement_taken taken), others⟩

end Reader

/-- No clause is read behind an open statement. -/
def Contract.elses (text : List Char) : Contract where
  hint _ := True
  unary _ := True
  binary _ := True
  ternary _ := True
  expression _ := True
  statement passage := ∀ statement, passage.value = [statement] → statement.Open →
    Reader.ElseRefused text passage.behind.rest

theorem Reader.statementsTaken_of_heldAt {text : List Char} {start : Cursor}
    (held : (Contract.elses text).HeldAt start) : Reader.StatementsTaken text start :=
  .part (fun place reached parts member => (held place reached parts member).statement)
    fun _ _ _ _ _ _ promised => promised

theorem Contract.elses_metBy (text : List Char) :
    (Contract.elses text).MetBy (Nested.ofText text) text where
  hint _ _ _ _ _ _ := trivial
  unary _ _ _ _ _ _ := trivial
  binary _ _ _ _ _ _ := trivial
  ternary _ _ _ _ _ _ := trivial
  expression _ _ _ _ _ _ := trivial
  statement within held _ _ _ read :=
    Reader.statement_taken (Reader.statementsTaken_of_heldAt held) within
      (Cursor.Reaches.refl _) read

/-- The parts kept for a text have the property wherever a cursor stands in it. -/
theorem Reader.statementsTaken {text : List Char} {cursor : Cursor} (on : cursor.OnText text) :
    Reader.StatementsTaken text cursor := by
  apply Reader.statementsTaken_of_heldAt
  obtain ⟨offset, bound, misread, rfl⟩ := on
  have reached := Cursor.ofText_reaches bound misread
  have held := (Contract.elses_metBy text).heldAt_table [] text rfl
  intro later further
  exact held later (reached.trans further)

theorem Reader.ifStatement_followed {text : List Char} {cursor later : Cursor} {statement : Stmt}
    (within : cursor.Within (Nested.ofText text) text)
    (read : (ifStatement (Nested.ofText text)).run cursor = some (statement, later)) :
    ∃ span condition body elseIfs otherwise,
      statement = .ifElse span condition body elseIfs otherwise ∧
      ∀ preceding ∈ followedBodies body elseIfs otherwise, ¬ preceding.Open :=
  (ifStatement_attached (fun _ on => statementsTaken on) within read).1

end PhpAudit
