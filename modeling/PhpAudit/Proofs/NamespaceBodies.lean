import PhpAudit.Proofs.ClauseWords
import PhpAudit.Proofs.DanglingElse
import PhpAudit.Proofs.NamespaceHeaders
import PhpAudit.Proofs.ParsingEnds

/-!
The statements of namespaces without braces. A reader of a statement gives a namespace only where a
header stands in the text, and the body of a namespace is read on only where no header stands that
starts another one. What is left for a namespace inside it is a header before a closing tag; behind
that one, the body goes no further.
-/

namespace PhpAudit

open Form

namespace Cursor

variable {text : List Char} {cursor : Cursor}

theorem OnText.within (on : cursor.OnText text) : cursor.Within (Nested.ofText text) text := by
  obtain ⟨offset, _, misread, rfl⟩ := on
  exact within_onTable offset misread

theorem OnText.told (on : cursor.OnText text) : cursor.Told (text.length + 1) true := by
  obtain ⟨offset, bound, misread, rfl⟩ := on
  obtain ⟨passed, passes⟩ := ofText_reaches bound misread
  exact (Parts.told_table {} 0 text (Nat.lt_succ_self _)).passes passes fun _ => .inl rfl

theorem Within.told (within : cursor.Within (Nested.ofText text) text) :
    cursor.Told (text.length + 1) false where
  bound := by
    rw [within.rest, List.length_drop]
    omega
  tell passed rest ahead moved := by
    obtain ⟨character, others, rfl⟩ := List.exists_cons_of_ne_nil (moved.resolve_left nofun)
    have inside : cursor.offset ≤ text.length := by
      have size := congrArg List.length (within.rest.symm.trans ahead)
      simp only [List.length_drop, List.length_append, List.length_cons] at size
      omega
    have whole : text = (text.take cursor.offset ++ character :: others) ++ rest := by
      rw [List.append_assoc, ← ahead, within.rest, List.take_append_drop]
    obtain ⟨parts, head, tell⟩ :=
      (Parts.told_table {} 0 text (Nat.lt_succ_self _)).tell _ rest whole (.inl rfl)
    refine ⟨parts, ?_, tell⟩
    have behind : cursor.parts.drop (character :: others).length =
        (Parts.table (Nested.ofText text) {} 0 text).drop
          (text.take cursor.offset ++ character :: others).length := by
      rw [List.length_cons, ← List.drop_tail, within.parts, List.drop_drop, List.length_append,
        List.length_take_of_le inside, List.length_cons]
      congr 1
      omega
    rwa [behind]

end Cursor

/-- The statements that were read between two points hold no namespace, or they are one. Then a
header stands at the first point, and without braces, the namespace has ended at the second one. -/
inductive Headed (before behind : Point) : List Stmt → Prop where
  | others {statements : List Stmt}
      (each : ∀ statement ∈ statements, statement.isPackage = false) :
      Headed before behind statements
  | package {name : Option String} {inner : List Stmt} {braced : Bool}
      (header : Matches Symbol.rules (.symbol .namespaceStart) before.rest ∨
        braced = false ∧ Matches Symbol.rules Symbol.taggedHeader before.rest)
      (ends : braced = false → Symbol.Settled behind.rest) :
      Headed before behind [.package before.span name inner braced]

namespace Reader

variable {Value : Type} {text : List Char} {start cursor later : Cursor}

theorem AnswersAt.matches {reader : Reader Value} {form : Form Symbol} {value : Value}
    (answers : reader.AnswersAt form cursor) (read : reader.run cursor = some (value, later)) :
    Matches Symbol.rules form cursor.rest := by
  rcases answers.cases with ⟨fails, _⟩ | ⟨_, _, _, _, _, taken⟩
  · cases read.symm.trans fails
  · exact ⟨_, taken⟩

theorem AnswersAt.not_matches {reader : Reader Value} {form : Form Symbol}
    (answers : reader.AnswersAt form cursor) (fails : reader.Fails cursor) :
    ¬ Matches Symbol.rules form cursor.rest := by
  rcases answers.cases with ⟨_, nothing⟩ | ⟨_, _, _, read, _, _⟩
  · rintro ⟨length, taken⟩
    cases taken.unique nothing
  · cases read.symm.trans fails

theorem AnswersAt.exists_run {reader : Reader Value} {form : Form Symbol}
    (answers : reader.AnswersAt form cursor) (found : Matches Symbol.rules form cursor.rest) :
    ∃ value later, reader.run cursor = some (value, later) := by
  rcases answers.cases with ⟨_, nothing⟩ | ⟨value, later, _, read, _, _⟩
  · obtain ⟨length, taken⟩ := found
    cases taken.unique nothing
  · exact ⟨value, later, read⟩

theorem AnswersAt.fails_of_none {reader : Reader Value} {form : Form Symbol}
    (answers : reader.AnswersAt form cursor)
    (nothing : Answers Symbol.rules form cursor.rest none) : reader.Fails cursor := by
  rcases answers.cases with ⟨fails, _⟩ | ⟨_, _, _, _, _, taken⟩
  · exact fails
  · cases taken.unique nothing

theorem run_absent {reader : Reader Value} {nothing : Unit}
    (read : (absent reader).run cursor = some (nothing, later)) :
    reader.Fails cursor ∧ later = cursor := by
  simp only [absent] at read
  split at read
  · cases read
  · rename_i fails
    cases read
    exact ⟨fails, rfl⟩

theorem run_firstOf {nested : Nested} {readers : List (Nested → Reader Stmt)}
    {statements : List Stmt}
    (read : (readers.foldr (fun reader others => lone (reader nested) <|> others) failure).run
      cursor = some (statements, later)) :
    ∃ reader ∈ readers, ∃ statement, statements = [statement] ∧
      (reader nested).run cursor = some (statement, later) := by
  induction readers with
  | nil => cases read
  | cons reader rest ih =>
      rcases run_orElse read with first | others
      · obtain ⟨statement, _, found, wrapped⟩ := run_bind first
        cases wrapped
        exact ⟨reader, List.mem_cons_self, statement, rfl, found⟩
      · obtain ⟨other, member, found⟩ := ih others
        exact ⟨other, List.mem_cons_of_mem reader member, found⟩

/-- Readers that fail are passed over. -/
theorem run_firstOf_append {nested : Nested} {readers others : List (Nested → Reader Stmt)}
    (each : ∀ reader ∈ readers, (reader nested).Fails cursor) :
    ((readers ++ others).foldr (fun reader rest => lone (reader nested) <|> rest) failure).run
      cursor =
    (others.foldr (fun reader rest => lone (reader nested) <|> rest) failure).run cursor := by
  induction readers with
  | nil => rfl
  | cons reader rest ih =>
      obtain ⟨first, more⟩ := List.forall_mem_cons.mp each
      exact first.bind.run_orElse.trans (ih more)

/-! Where namespaces are read -/

theorem unbracedNamespace_settled {nested : Nested} {statement : Stmt}
    (answers : (unbracedNamespace nested).AnswersAt (.symbol .unbracedNamespace) cursor)
    (read : (unbracedNamespace nested).run cursor = some (statement, later)) :
    Symbol.Settled later.rest := by
  rcases answers.cases with ⟨fails, _⟩ | ⟨_, behind, passed, again, passes, taken⟩
  · cases read.symm.trans fails
  · cases read.symm.trans again
    rw [← passes.drop]
    exact Symbol.settled_behind_unbracedNamespace taken

theorem bracedNamespace_package {nested : Nested} {statement : Stmt}
    (read : (bracedNamespace nested).run cursor = some (statement, later)) :
    ∃ name inner, statement = .package cursor.span name inner true := by
  obtain ⟨_, _, located, read⟩ := run_bind read
  cases located
  iterate 7 obtain ⟨_, _, _, read⟩ := run_bind read
  cases read
  exact ⟨_, _, rfl⟩

theorem unbracedNamespace_package {nested : Nested} {statement : Stmt}
    (read : (unbracedNamespace nested).run cursor = some (statement, later)) :
    ∃ name inner, statement = .package cursor.span name inner false := by
  obtain ⟨_, _, located, read⟩ := run_bind read
  cases located
  iterate 7 obtain ⟨_, _, _, read⟩ := run_bind read
  cases read
  exact ⟨_, _, rfl⟩

theorem bracedNamespace_headed {statement : Stmt}
    (within : cursor.Within (Nested.ofText text) text)
    (read : (bracedNamespace (Nested.ofText text)).run cursor = some (statement, later)) :
    Headed cursor.point later.point [statement] := by
  have start := Symbol.namespaceStart_of_bracedNamespace
    ((follows_bracedNamespace within.told).matches read)
  obtain ⟨_, _, rfl⟩ := bracedNamespace_package read
  exact .package (.inl start) nofun

theorem unbracedNamespace_headed {statement : Stmt}
    (within : cursor.Within (Nested.ofText text) text)
    (read : (unbracedNamespace (Nested.ofText text)).run cursor = some (statement, later)) :
    Headed cursor.point later.point [statement] := by
  have answers := follows_unbracedNamespace within.told
  have start := Symbol.namespaceStart_or_taggedHeader (answers.matches read)
  have settled := unbracedNamespace_settled answers read
  obtain ⟨_, _, rfl⟩ := unbracedNamespace_package read
  exact .package (start.imp id fun tagged => ⟨rfl, tagged⟩) fun _ => settled

/-- The statements that are tried before namespaces. -/
def statementsBeforeNamespaces : List (Nested → Reader Stmt) :=
  [ifStatement, whileStatement, doWhileStatement, forStatement, foreachStatement, switchStatement,
    tryStatement, wordStatement "return" .returnValue, echoStatement,
    wordStatement "break" .breakOut, wordStatement "continue" .continueOn, globalStatement,
    staticStatement]

/-- The statements that are tried behind namespaces. -/
def statementsAfterNamespaces : List (Nested → Reader Stmt) :=
  [useStatement, constStatement, declareStatement, functionDeclaration, classDeclaration,
    interfaceDeclaration, traitDeclaration, enumDeclaration, fun _ => noopStatement,
    expressionStatement]

theorem ifStatement_notPackage (nested : Nested) :
    Gives start (ifStatement nested) fun statement _ => statement.isPackage = false := by
  unfold ifStatement
  refine .pass fun span => .pass fun _ => .pass fun _ => .pass fun condition => .pass fun _ => ?_
  refine .orElse ?colon ?plain
  case colon =>
    unfold ifColon
    repeat refine .pass fun _ => ?_
    exact .give fun _ _ => rfl
  case plain =>
    unfold ifPlain
    repeat refine .pass fun _ => ?_
    exact .give fun _ _ => rfl

theorem otherStatements_notPackage (nested : Nested) :
    ∀ reader ∈ statementsBeforeNamespaces ++ statementsAfterNamespaces,
      Gives start (reader nested) fun statement _ => statement.isPackage = false := by
  simp only [statementsBeforeNamespaces, statementsAfterNamespaces, List.cons_append,
    List.nil_append, List.forall_mem_cons, whileStatement, doWhileStatement, forStatement,
    foreachStatement, switchStatement, tryStatement, wordStatement, echoStatement, globalStatement,
    staticStatement, useStatement, constStatement, declareStatement, functionDeclaration,
    classDeclaration, interfaceDeclaration, traitDeclaration, enumDeclaration, noopStatement,
    expressionStatement]
  refine ⟨ifStatement_notPackage nested, ?_, ?_, ?_, ?_, ?_, ?_, ?_, ?_, ?_, ?_, ?_, ?_, ?_, ?_, ?_,
    ?_, ?_, ?_, ?_, ?_, ?_, ?_, List.forall_mem_nil _⟩
  all_goals
    repeat refine .pass fun _ => ?_
    exact .give fun _ _ => rfl

theorem inlineHtml_notPackage :
    Gives start inlineHtml fun statement _ => statement.isPackage = false :=
  .pass fun _ => .pass fun _ => .give fun _ _ => rfl

theorem openingTag_notPackage :
    Gives start openingTag fun statement _ => statement.isPackage = false :=
  .pass fun _ => .pass fun _ => .give fun _ _ => rfl

theorem closingTag_notPackage : Gives start closingTag fun statements _ =>
    ∀ statement ∈ statements, statement.isPackage = false := by
  unfold closingTag
  refine .pass fun span => .pass fun _ => inlineHtml_notPackage.option.next fun html noHtml => ?_
  refine openingTag_notPackage.option.next fun tag noTag => .give fun _ _ => ?_
  have closing : (Stmt.closingTag span).isPackage = false := rfl
  simpa [or_imp, forall_and] using ⟨closing, noHtml, noTag⟩

/-- Statements that are read at a place hold no namespace, or a header stands there. -/
theorem statement_headed {statements : List Stmt}
    (within : cursor.Within (Nested.ofText text) text)
    (read : (statement (Nested.ofText text)).run cursor = some (statements, later)) :
    Headed cursor.point later.point statements := by
  rcases run_orElse read with block | read
  · obtain ⟨statement, _, found, wrapped⟩ := run_bind block
    obtain ⟨_, _, _, inner⟩ := run_bind found
    cases inner
    cases wrapped
    exact .others (List.forall_mem_singleton.mpr rfl)
  rcases run_orElse read with tag | read
  · exact .others (closingTag_notPackage (Cursor.Reaches.refl cursor) tag)
  have tried : ∃ reader ∈ statementsBeforeNamespaces ++
      bracedNamespace :: unbracedNamespace :: statementsAfterNamespaces,
      ∃ statement, statements = [statement] ∧
        (reader (Nested.ofText text)).run cursor = some (statement, later) := run_firstOf read
  obtain ⟨reader, member, statement, rfl, found⟩ := tried
  have other (listed : reader ∈ statementsBeforeNamespaces ++ statementsAfterNamespaces) :
      Headed cursor.point later.point [statement] :=
    .others (List.forall_mem_singleton.mpr
      (otherStatements_notPackage _ reader listed (Cursor.Reaches.refl cursor) found))
  rcases List.mem_append.mp member with before | member
  · exact other (List.mem_append_left _ before)
  rcases List.mem_cons.mp member with rfl | member
  · exact bracedNamespace_headed within found
  rcases List.mem_cons.mp member with rfl | behind
  · exact unbracedNamespace_headed within found
  · exact other (List.mem_append_right _ behind)

/-! What is read at a namespace -/

section AtNamespace

variable {first : Char} {rest : List Char} {nested : Nested} (ahead : cursor.rest = first :: rest)
  (initial : first.toLower = 'n')

include ahead initial

theorem wordStart_fails {word : String} (filled : word.toList ≠ [])
    (other : ∀ letter ∈ word.toList.take 1, letter.toLower = letter ∧ letter ≠ 'n') :
    (keyword word).Fails cursor := by
  obtain ⟨letter, more, spelled⟩ := List.exists_cons_of_ne_nil filled
  obtain ⟨small, apart⟩ := other letter (by simp [spelled])
  have differs : foldsTo letter first = false := Bool.eq_false_iff.mpr fun folds =>
    apart (eq_of_foldsTo small (by decide) initial folds)
  apply Fails.token
  simp only [Lexeme.keyword, Lexeme.before, spelled, ahead, Lexeme.letters, differs]
  rfl

theorem signStart_fails {sign : String} {letter : Char} {more : List Char}
    (begins : sign.toList = letter :: more) (notLetter : letter.isAlpha = false) :
    (mark sign).Fails cursor := by
  have apart : first ≠ letter := by
    rintro rfl
    rw [isAlpha_of_toLower (by decide) initial] at notLetter
    cases notLetter
  apply Fails.token
  simp [Lexeme.mark, begins, ahead, apart]

theorem statementsBeforeNamespaces_fail :
    ∀ reader ∈ statementsBeforeNamespaces, (reader nested).Fails cursor := by
  have words : ∀ word ∈ ["if", "while", "do", "for", "foreach", "switch", "try", "return", "echo",
      "break", "continue", "global", "static"], word.toList ≠ [] ∧
      ∀ letter ∈ word.toList.take 1, letter.toLower = letter ∧ letter ≠ 'n' := by decide
  have word : ∀ {word}, word ∈ ["if", "while", "do", "for", "foreach", "switch", "try", "return",
      "echo", "break", "continue", "global", "static"] → ∀ {next : Unit → Reader Stmt},
      (keyword word >>= next).Fails cursor :=
    fun known => .bind (wordStart_fails ahead initial (words _ known).1 (words _ known).2)
  simp only [statementsBeforeNamespaces, List.forall_mem_cons]
  exact ⟨.here (word (by decide)), .here (word (by decide)), .here (word (by decide)),
    .here (word (by decide)), .here (word (by decide)), .here (word (by decide)),
    .here (word (by decide)), .here (word (by decide)), .here (word (by decide)),
    .here (word (by decide)), .here (word (by decide)), .here (word (by decide)),
    .here (word (by decide)), nofun⟩

/-- At the letter of the word, namespaces are tried first. -/
theorem run_statement_at_namespace : (statement nested).run cursor =
    ((bracedNamespace :: unbracedNamespace :: statementsAfterNamespaces).foldr
      (fun reader others => lone (reader nested) <|> others) failure).run cursor := by
  have noBlock : (lone (.block <$> block nested)).Fails cursor :=
    .bind (.map (.here (.bind (signStart_fails ahead initial rfl (by decide)))))
  have noTag : closingTag.Fails cursor :=
    .here (.bind (signStart_fails ahead initial rfl (by decide)))
  exact (noBlock.run_orElse.trans noTag.run_orElse).trans
    (run_firstOf_append (statementsBeforeNamespaces_fail ahead initial))

end AtNamespace

/-- Where a whole namespace stands, it is read. -/
theorem statement_package {statements : List Stmt}
    (within : cursor.Within (Nested.ofText text) text)
    (found : Matches Symbol.rules (.symbol .namespaceStatement) cursor.rest)
    (read : (statement (Nested.ofText text)).run cursor = some (statements, later)) :
    ∃ name inner braced, statements = [.package cursor.span name inner braced] := by
  obtain ⟨first, rest, ahead, initial⟩ := Symbol.head_of_namespaceStatement found
  rw [run_statement_at_namespace ahead initial] at read
  rcases matches_choice.mp (matches_symbol.mp found) with braced | ⟨nothing, unbraced⟩
  · obtain ⟨statement, behind, taken⟩ := (follows_bracedNamespace within.told).exists_run braced
    obtain ⟨name, inner, rfl⟩ := bracedNamespace_package taken
    cases read.symm.trans (run_orElse_of_some (run_bind_of_some taken))
    exact ⟨name, inner, true, rfl⟩
  · have fails := (follows_bracedNamespace within.told).fails_of_none nothing
    obtain ⟨statement, behind, taken⟩ :=
      (follows_unbracedNamespace within.told).exists_run unbraced
    obtain ⟨name, inner, rfl⟩ := unbracedNamespace_package taken
    cases read.symm.trans
      (fails.bind.run_orElse.trans (run_orElse_of_some (run_bind_of_some taken)))
    exact ⟨name, inner, false, rfl⟩

theorem statement_ne_nil {nested : Nested} {statements : List Stmt}
    (read : (statement nested).run cursor = some (statements, later)) : statements ≠ [] := by
  have some : Gives cursor (statement nested) fun statements _ => statements ≠ [] := by
    refine .orElse (.lone fun _ _ _ _ _ => nofun) <|
      .orElse ?_ (.firstOf fun _ _ _ _ _ _ _ => nofun)
    exact .pass fun _ => .pass fun _ => .pass fun _ => .pass fun _ => .give fun _ _ => nofun
  exact some (Cursor.Reaches.refl cursor) read

end Reader

/-- Namespaces are read at their headers, and there only. -/
def Contract.headers : Contract where
  hint _ := True
  unary _ := True
  binary _ := True
  ternary _ := True
  expression _ := True
  statement passage := passage.value ≠ [] ∧ Headed passage.before passage.behind passage.value ∧
    (Matches Symbol.rules (.symbol .namespaceStatement) passage.before.rest →
      ∃ name inner braced, passage.value = [.package passage.before.span name inner braced])

theorem Contract.headers_metBy (text : List Char) :
    Contract.headers.MetBy (Nested.ofText text) text where
  hint _ _ _ _ _ _ := trivial
  unary _ _ _ _ _ _ := trivial
  binary _ _ _ _ _ _ := trivial
  ternary _ _ _ _ _ _ := trivial
  expression _ _ _ _ _ _ := trivial
  statement within _ _ _ _ read :=
    ⟨Reader.statement_ne_nil read, Reader.statement_headed within read,
      fun found => Reader.statement_package within found read⟩

namespace Reader

variable {text : List Char} {cursor later : Cursor}

theorem nestedStatement_headed {statements : List Stmt} (on : cursor.OnText text)
    (read : (Nested.ofText text).statement.run cursor = some (statements, later)) :
    statements ≠ [] ∧ Headed cursor.point later.point statements ∧
      (Matches Symbol.rules (.symbol .namespaceStatement) cursor.rest →
        ∃ name inner braced, statements = [.package cursor.span name inner braced]) := by
  obtain ⟨offset, bound, misread, rfl⟩ := on
  have held := (Contract.headers_metBy text).heldAt_table [] text rfl
  have kept := held _ (Cursor.ofText_reaches bound misread)
  obtain ⟨_, headed⟩ := promised_of_part (fun parts member => (kept parts member).statement) read
  exact headed

/-! The body of a namespace without braces -/

/-- One round of the body. -/
def namespaceRound (nested : Nested) : Reader (List Stmt) := do
  absent namespaceStart
  let statements ← nested.statement
  skip
  return statements

theorem namespaceRound_fails (on : cursor.OnText text) (settled : Symbol.Settled cursor.rest) :
    (namespaceRound (Nested.ofText text)).Fails cursor := by
  have follows : Follows (text.length + 1) true (namespaceRound (.held (text.length + 1)))
      Symbol.bodyRound :=
    .bind (.absent follows_namespaceStart) fun _ => .bind .heldStatement fun _ =>
      .last .skip fun _ => .give
  rcases (follows on.told).cases with ⟨fails, _⟩ | ⟨_, _, _, _, _, taken⟩
  · exact fails
  · exact absurd ⟨_, taken⟩ settled.not_bodyRound

/-- The statements of a round hold no namespace, or they are one with a header before a closing tag
and no round follows. -/
theorem namespaceRound_tagged {statements : List Stmt} (on : cursor.OnText text)
    (read : (namespaceRound (Nested.ofText text)).run cursor = some (statements, later)) :
    (∀ statement ∈ statements, statement.isPackage = false) ∨
      TaggedAtEnd text statements ∧ (namespaceRound (Nested.ofText text)).Fails later := by
  have onLater := on.reaches ((namespaceRound (Nested.ofText text)).moves read)
  obtain ⟨_, _, absent, read⟩ := run_bind read
  obtain ⟨fails, same⟩ := run_absent absent
  rw [same] at read
  obtain ⟨found, middle, taken, read⟩ := run_bind read
  obtain ⟨_, _, skipped, read⟩ := run_bind read
  cases read
  cases skipped
  obtain ⟨_, headed, _⟩ := nestedStatement_headed on taken
  have noStart := (follows_namespaceStart on.told).not_matches fails
  cases headed with
  | others none => exact .inl none
  | package header ends =>
      obtain ⟨rfl, tagged⟩ := header.resolve_left noStart
      have settled := ends rfl
      refine .inr ⟨.cons_package ⟨rfl, rfl, cursor.offset, on.offset_le,
        on.within.spanAt_offset on.offset_le, ?_⟩ .nil, namespaceRound_fails onLater ?_⟩
      · rw [← on.within.rest]
        exact tagged
      · rw [show Lexeme.trivia middle.rest = 0 from settled.bare]
        exact settled

theorem namespaceRounds_tagged {limit : Nat} {groups : List (List Stmt)} (on : cursor.OnText text)
    (read : (many limit (namespaceRound (Nested.ofText text))).run cursor = some (groups, later)) :
    TaggedAtEnd text groups.flatten := by
  induction limit generalizing cursor groups with
  | zero =>
      cases read
      exact .nil
  | succ limit ih =>
      rcases run_many_succ read with ⟨rfl, rfl⟩ | ⟨statements, middle, others, rfl, first, rest⟩
      · exact .nil
      · rw [List.flatten_cons]
        rcases namespaceRound_tagged on first with none | ⟨tagged, fails⟩
        · have moves := (namespaceRound (Nested.ofText text)).moves first
          exact .append none (ih (on.reaches moves) rest)
        · rw [fails.many] at rest
          cases rest
          rwa [List.flatten_nil, List.append_nil]

theorem unbracedNamespace_tagged {statement : Stmt}
    (within : cursor.Within (Nested.ofText text) text)
    (read : (unbracedNamespace (Nested.ofText text)).run cursor = some (statement, later)) :
    ∃ span name statements, statement = .package span name statements false ∧
      TaggedAtEnd text statements := by
  obtain ⟨span, _, located, read⟩ := run_bind read
  cases located
  obtain ⟨_, behindWord, word, read⟩ := run_bind read
  obtain ⟨_, _, gap, read⟩ := run_bind read
  obtain ⟨_, _, name, read⟩ := run_bind read
  obtain ⟨_, _, blank, read⟩ := run_bind read
  obtain ⟨_, _, ended, read⟩ := run_bind read
  obtain ⟨_, _, trivia, read⟩ := run_bind read
  obtain ⟨groups, _, body, read⟩ := run_bind read
  cases read
  have on := token_onText Token.namespaceKeyword.solid within word
  have toBody := ((((skip.moves gap).trans (neededName.moves name)).trans
    (skip.moves blank)).trans (terminator.moves ended)).trans (skip.moves trivia)
  exact ⟨_, _, _, rfl, namespaceRounds_tagged (on.reaches toBody) body⟩

end Reader

end PhpAudit
