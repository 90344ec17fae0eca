import PhpAudit.Proofs.GrammarRules
import PhpAudit.Proofs.Traversal

/-!
The headers of namespaces in the grammar. A namespace without braces ends where another one starts
that has a semicolon or a brace behind its name. A header may also end before a closing tag, but the
rule for the start of a namespace does not know this form; so such a namespace is one more statement
of the namespace before it.
-/

namespace PhpAudit

namespace Form

variable {Symbol : Type} {rules : Grammar Symbol} {form first second : Form Symbol}
  {text : List Char}

/-- The form does not fail on the text. -/
def Matches (rules : Grammar Symbol) (form : Form Symbol) (text : List Char) : Prop :=
  ∃ length, Answers rules form text (some length)

theorem matches_symbol {symbol : Symbol} :
    Matches rules (.symbol symbol) text ↔ Matches rules (rules symbol) text := by
  constructor
  · rintro ⟨length, taken⟩
    cases taken with
    | symbol body => exact ⟨length, body⟩
  · rintro ⟨length, body⟩
    exact ⟨length, .symbol body⟩

theorem matches_row : Matches rules (.row first second) text ↔
    ∃ length, Answers rules first text (some length) ∧ Matches rules second (text.drop length) := by
  constructor
  · rintro ⟨length, taken⟩
    cases taken with
    | row front back => exact ⟨_, front, _, back⟩
  · rintro ⟨length, front, more, back⟩
    exact ⟨length + more, .row front back⟩

theorem matches_choice : Matches rules (.choice first second) text ↔
    Matches rules first text ∨ Answers rules first text none ∧ Matches rules second text := by
  constructor
  · rintro ⟨length, taken⟩
    cases taken with
    | choice front => exact .inl ⟨length, front⟩
    | choiceOther fails other => exact .inr ⟨fails, length, other⟩
  · rintro (⟨length, taken⟩ | ⟨fails, length, taken⟩)
    · exact ⟨length, .choice taken⟩
    · exact ⟨length, .choiceOther fails taken⟩

theorem Matches.token {token : Token} (found : Matches rules (.token token) text) :
    ∃ length, token.rule text = some length := by
  obtain ⟨length, taken⟩ := found
  cases taken with
  | token same => exact ⟨length, same⟩

/-- A token answers for every text, so the other alternative is tried if the token is not there. -/
theorem Matches.or_token (token : Token) (found : Matches rules form text) :
    Matches rules (.choice (.token token) form) text := by
  cases taken : token.rule text with
  | none => exact matches_choice.mpr (.inr ⟨.token taken, found⟩)
  | some length => exact matches_choice.mpr (.inl ⟨length, .token taken⟩)

theorem answers_none_of_choice (fails : Answers rules (.choice first second) text none) :
    Answers rules first text none ∧ Answers rules second text none := by
  cases fails with
  | choiceOther one other => exact ⟨one, other⟩

/-- Where a choice fails, each of its alternatives fails. -/
theorem answers_none_of_choices {forms : List (Form Symbol)}
    (fails : Answers rules (choices forms) text none) (member : form ∈ forms) :
    Answers rules form text none := by
  induction forms with
  | nil => cases member
  | cons one others ih =>
      cases others with
      | nil =>
          cases List.mem_singleton.mp member
          exact fails
      | cons other more =>
          obtain ⟨front, back⟩ := answers_none_of_choice fails
          rcases List.mem_cons.mp member with rfl | later
          · exact front
          · exact ih back later

/-- Where a row fails although its first part is there, the rest of it fails. -/
theorem answers_none_of_row {length : Nat} (fails : Answers rules (.row first second) text none)
    (front : Answers rules first text (some length)) :
    Answers rules second (text.drop length) none := by
  cases fails with
  | rowFront nothing => cases front.unique nothing
  | rowBack other back =>
      cases front.unique other
      exact back

/-- A row ends where its second part does. -/
theorem exists_of_row {length : Nat}
    (taken : Answers rules (.row first second) text (some length)) :
    ∃ part more, Answers rules second part (some more) ∧ text.drop length = part.drop more := by
  cases taken with
  | row front back => exact ⟨_, _, back, List.drop_drop.symm⟩

/-- A repetition ends where its item fails. -/
theorem answers_none_behind_star {length : Nat}
    (taken : Answers rules (.star form) text (some length)) :
    Answers rules form (text.drop length) none := by
  generalize star : Form.star form = whole, answer : some length = found at taken
  induction taken generalizing length with
  | star front others frontIh othersIh =>
      cases star
      cases answer
      rw [← List.drop_drop]
      exact othersIh rfl rfl
  | starEnd fails =>
      cases star
      cases answer
      exact fails
  | _ => cases star

end Form

theorem Lexeme.triviaFrom_drop (known : Nat) (text : List Char) :
    trivia (text.drop (triviaFrom known text)) = 0 := by
  induction text generalizing known with
  | nil => cases known <;> rfl
  | cons character rest ih =>
      cases known with
      | succ more => exact ih more
      | zero =>
          cases item : triviaItem (character :: rest) with
          | zero =>
              have still := trivia_zero item
              rw [trivia] at still
              rw [still, List.drop_zero]
              exact trivia_zero item
          | succ more =>
              have step : triviaFrom 0 (character :: rest) = triviaFrom more rest + 1 := by
                conv => lhs; unfold triviaFrom
                rw [item]
              rw [step]
              exact ih more

/-- Behind trivia there is none. -/
theorem Lexeme.trivia_drop (text : List Char) : trivia (text.drop (trivia text)) = 0 :=
  triviaFrom_drop 0 text

theorem Lexeme.head?_of_mark {expected : Char} {more text : List Char} {length : Nat}
    (taken : mark (expected :: more) text = some length) : text.head? = some expected := by
  cases text with
  | nil => cases taken
  | cons character rest =>
      rw [mark] at taken
      split at taken
      · rename_i same
        rw [List.head?_cons, eq_of_beq same]
      · cases taken

namespace Symbol

open Form

theorem closingMark_filled : "?>" ≠ "" := by decide

/-- The header of a namespace before a closing tag. -/
def taggedHeader : Form Symbol :=
  rows [Token.namespaceKeyword, .trivia, Token.name, .trivia, Token.mark "?>" closingMark_filled]

variable {text : List Char}

/-- A namespace with braces starts in a way that ends the namespace before it. -/
theorem namespaceStart_of_bracedNamespace (found : Matches rules (.symbol .bracedNamespace) text) :
    Matches rules (.symbol .namespaceStart) text := by
  obtain ⟨_, word, found⟩ := matches_row.mp (matches_symbol.mp found)
  obtain ⟨_, gap, found⟩ := matches_row.mp found
  obtain ⟨_, name, found⟩ := matches_row.mp found
  obtain ⟨_, brace, _⟩ := matches_row.mp found
  have opened : Matches rules (choices [Token.mark ";", Token.mark "\x7b"]) _ :=
    .or_token (.mark ";") ⟨_, brace⟩
  exact matches_symbol.mpr (matches_row.mpr ⟨_, word, matches_row.mpr ⟨_, gap,
    matches_row.mpr ⟨_, name, opened⟩⟩⟩)

/-- A namespace without braces starts so as well, or it has a header before a closing tag. -/
theorem namespaceStart_or_taggedHeader (found : Matches rules (.symbol .unbracedNamespace) text) :
    Matches rules (.symbol .namespaceStart) text ∨ Matches rules taggedHeader text := by
  obtain ⟨_, word, found⟩ := matches_row.mp (matches_symbol.mp found)
  obtain ⟨_, gap, found⟩ := matches_row.mp found
  obtain ⟨size, name, found⟩ := matches_row.mp found
  obtain ⟨more, blank, found⟩ := matches_row.mp found
  obtain ⟨_, ended, _⟩ := matches_row.mp found
  rcases matches_choice.mp (matches_symbol.mp ⟨_, ended⟩) with semicolon | ⟨_, _, tag⟩
  · left
    have named : Answers rules (.optional (rows [Token.name, .trivia])) _ (some (size + more)) :=
      .choice (.row name blank)
    have closed : Matches rules (choices [Token.mark ";", Token.mark "\x7b"]) _ :=
      matches_choice.mpr (.inl semicolon)
    rw [List.drop_drop] at closed
    exact matches_symbol.mpr (matches_row.mpr ⟨_, word, matches_row.mpr ⟨_, gap,
      matches_row.mpr ⟨_, named, closed⟩⟩⟩)
  · right
    cases tag with
    | ahead mark =>
        exact matches_row.mpr ⟨_, word, matches_row.mpr ⟨_, gap, matches_row.mpr ⟨_, name,
          matches_row.mpr ⟨_, blank, _, mark⟩⟩⟩⟩

/-- A header before a closing tag is no start that ends the namespace before it. -/
theorem not_namespaceStart_of_taggedHeader (found : Matches rules taggedHeader text) :
    ¬ Matches rules (.symbol .namespaceStart) text := by
  intro start
  obtain ⟨_, word, found⟩ := matches_row.mp found
  obtain ⟨_, gap, found⟩ := matches_row.mp found
  obtain ⟨size, name, found⟩ := matches_row.mp found
  obtain ⟨more, blank, tag⟩ := matches_row.mp found
  have named : Answers rules (.optional (rows [Token.name, .trivia])) _ (some (size + more)) :=
    .choice (.row name blank)
  obtain ⟨_, sameWord, start⟩ := matches_row.mp (matches_symbol.mp start)
  cases word.unique sameWord
  obtain ⟨_, sameGap, start⟩ := matches_row.mp start
  cases gap.unique sameGap
  obtain ⟨_, sameName, start⟩ := matches_row.mp start
  cases named.unique sameName
  rw [← List.drop_drop] at start
  obtain ⟨_, tagged⟩ := tag.token
  -- Behind the name stands a question mark, and so neither of the two marks.
  have question := Lexeme.head?_of_mark tagged
  rcases matches_choice.mp start with semicolon | ⟨_, brace⟩
  · obtain ⟨_, marked⟩ := semicolon.token
    cases question.symm.trans (Lexeme.head?_of_mark marked)
  · obtain ⟨_, marked⟩ := brace.token
    cases question.symm.trans (Lexeme.head?_of_mark marked)

theorem head_of_namespaceStatement (found : Matches rules (.symbol .namespaceStatement) text) :
    ∃ first rest, text = first :: rest ∧ first.toLower = 'n' := by
  have word : ∃ length, Lexeme.namespaceKeyword text = some length := by
    rcases matches_choice.mp (matches_symbol.mp found) with braced | ⟨_, unbraced⟩
    · obtain ⟨_, word, _⟩ := matches_row.mp (matches_symbol.mp braced)
      exact Matches.token ⟨_, word⟩
    · obtain ⟨_, word, _⟩ := matches_row.mp (matches_symbol.mp unbraced)
      exact Matches.token ⟨_, word⟩
  obtain ⟨_, taken⟩ := word
  have spelled := (Lexeme.before_eq_some.mp (Lexeme.before_eq_some.mp taken).1).1
  cases text with
  | nil => cases spelled
  | cons first rest =>
      change (if foldsTo 'n' first then _ else none) = _ at spelled
      split at spelled
      · rename_i folds
        refine ⟨first, rest, rfl, ?_⟩
        simp only [foldsTo, Bool.or_eq_true, Bool.and_eq_true, beq_iff_eq] at folds
        rcases folds with (((rfl | same) | ⟨other, _⟩) | ⟨other, _⟩) | ⟨other, _⟩
        · rfl
        · exact same
        · cases other
        · cases other
        · cases other
      · cases spelled

theorem not_statement_none_of_taggedHeader (found : Matches rules taggedHeader text) :
    ¬ Answers rules (.symbol .statement) text none := by
  intro fails
  obtain ⟨_, word, found⟩ := matches_row.mp found
  obtain ⟨_, gap, found⟩ := matches_row.mp found
  obtain ⟨_, name, found⟩ := matches_row.mp found
  obtain ⟨_, blank, _, tag⟩ := matches_row.mp found
  obtain ⟨_, ended⟩ : Matches rules (.symbol .terminator) _ :=
    matches_symbol.mpr (.or_token (.mark ";") ⟨0, .ahead tag⟩)
  have package : Answers rules (.symbol .unbracedNamespace) text none := by
    cases fails with
    | symbol fails =>
        have either : Answers rules (.symbol .namespaceStatement) text none :=
          answers_none_of_choices fails (by simp)
        cases either with
        | symbol either => exact (answers_none_of_choice either).2
  cases package with
  | symbol package =>
      have behind := answers_none_of_row (answers_none_of_row (answers_none_of_row
        (answers_none_of_row (answers_none_of_row (answers_none_of_row package word) gap) name)
          blank) ended) .trivia
      cases behind with
      | symbol statements => cases statements

/-- At this place a namespace without braces has ended: another one starts here, or no statement
stands here, and there is no trivia to skip. -/
structure Settled (text : List Char) : Prop where
  bare : Lexeme.trivia text = 0
  ends : Matches rules (.symbol .namespaceStart) text ∨
    Answers rules (.symbol .statement) text none

theorem Settled.not_taggedHeader (settled : Settled text) : ¬ Matches rules taggedHeader text := by
  intro tagged
  rcases settled.ends with start | nothing
  · exact not_namespaceStart_of_taggedHeader tagged start
  · exact not_statement_none_of_taggedHeader tagged nothing

theorem Settled.namespaceStart (settled : Settled text)
    (statement : Matches rules (.symbol .statement) text) :
    Matches rules (.symbol .namespaceStart) text := by
  refine settled.ends.resolve_right fun nothing => ?_
  obtain ⟨length, taken⟩ := statement
  cases taken.unique nothing

/-- One round in the body of a namespace. -/
def bodyRound : Form Symbol := rows [.absent (.symbol .namespaceStart), .symbol .statement, .trivia]

theorem Settled.not_bodyRound (settled : Settled text) : ¬ Matches rules bodyRound text := by
  intro found
  obtain ⟨_, absent, found⟩ := matches_row.mp found
  obtain ⟨_, statement, _⟩ := matches_row.mp found
  cases absent with
  | absent nothing =>
      rcases settled.ends with ⟨_, start⟩ | fails
      · cases start.unique nothing
      · cases statement.unique fails

theorem bare_behind_rounds {length : Nat}
    (taken : Answers rules (.star bodyRound) text (some length))
    (bare : Lexeme.trivia text = 0) : Lexeme.trivia (text.drop length) = 0 := by
  generalize star : Form.star bodyRound = whole, answer : some length = found at taken
  induction taken generalizing length with
  | star front others frontIh othersIh =>
      cases star
      cases answer
      rw [← List.drop_drop]
      refine othersIh ?_ rfl rfl
      obtain ⟨_, _, front, afterAbsent⟩ := exists_of_row front
      obtain ⟨_, _, front, afterStatement⟩ := exists_of_row front
      rw [afterAbsent, afterStatement]
      cases front
      exact Lexeme.trivia_drop _
  | starEnd fails =>
      cases star
      cases answer
      exact bare
  | _ => cases star

/-- A namespace without braces goes on to the start of another one, or as far as there are
statements. -/
theorem settled_behind_unbracedNamespace {length : Nat}
    (taken : Answers rules (.symbol .unbracedNamespace) text (some length)) :
    Settled (text.drop length) := by
  obtain ⟨body, more, bare, rounds, same⟩ : ∃ body more, Lexeme.trivia body = 0 ∧
      Answers rules (.star bodyRound) body (some more) ∧ text.drop length = body.drop more := by
    cases taken with
    | symbol taken =>
        obtain ⟨_, _, taken, afterWord⟩ := exists_of_row taken
        obtain ⟨_, _, taken, afterGap⟩ := exists_of_row taken
        obtain ⟨_, _, taken, afterName⟩ := exists_of_row taken
        obtain ⟨_, _, taken, afterBlank⟩ := exists_of_row taken
        obtain ⟨part, _, taken, afterEnd⟩ := exists_of_row taken
        rw [afterWord, afterGap, afterName, afterBlank, afterEnd]
        cases taken with
        | row trivia statements =>
            cases trivia
            cases statements with
            | symbol statements =>
                exact ⟨_, _, Lexeme.trivia_drop part, statements, List.drop_drop.symm⟩
  rw [same]
  refine ⟨bare_behind_rounds rounds bare, ?_⟩
  cases answers_none_behind_star rounds with
  | rowFront fails =>
      cases fails with
      | absentFails start => exact .inl ⟨_, start⟩
  | rowBack absent fails =>
      cases absent
      cases fails with
      | rowFront fails => exact .inr fails
      | rowBack _ blank => cases blank

end Symbol

/-! Namespaces in a list of statements -/

/-- Something holds of every namespace in a list and of the statements behind it. -/
def EachPackage (holds : Span → Bool → List Stmt → Prop) (statements : List Stmt) : Prop :=
  ∀ before span name inner braced after,
    statements = before ++ .package span name inner braced :: after → holds span braced after

namespace EachPackage

variable {holds : Span → Bool → List Stmt → Prop} {rest : List Stmt}

theorem nil : EachPackage holds [] := by
  intro before span name inner braced after same
  obtain ⟨_, nothing⟩ := List.append_eq_nil_iff.mp same.symm
  cases nothing

theorem cons {statement : Stmt} (other : statement.isPackage = false)
    (each : EachPackage holds rest) : EachPackage holds (statement :: rest) := by
  intro before span name inner braced after same
  cases before with
  | nil =>
      rw [(List.cons.inj same).1] at other
      cases other
  | cons first more => exact each more span name inner braced after (List.cons.inj same).2

theorem append {front : List Stmt} (others : ∀ statement ∈ front, statement.isPackage = false)
    (each : EachPackage holds rest) : EachPackage holds (front ++ rest) := by
  induction front with
  | nil => exact each
  | cons statement more ih =>
      obtain ⟨first, behind⟩ := List.forall_mem_cons.mp others
      exact cons first (ih behind)

theorem cons_package {span : Span} {name : Option String} {inner : List Stmt} {braced : Bool}
    (first : holds span braced rest) (each : EachPackage holds rest) :
    EachPackage holds (.package span name inner braced :: rest) := by
  intro before place label nested flag after same
  cases before with
  | nil =>
      cases same
      exact first
  | cons _ more => exact each more place label nested flag after (List.cons.inj same).2

end EachPackage

/-- A namespace among the statements has no braces, is the last of them and stands at a header
before a closing tag. -/
def TaggedAtEnd (text : List Char) : List Stmt → Prop :=
  EachPackage fun span braced after => braced = false ∧ after = [] ∧
    ∃ offset ≤ text.length, spanAt text offset = span ∧
      Form.Matches Symbol.rules Symbol.taggedHeader (text.drop offset)

end PhpAudit
