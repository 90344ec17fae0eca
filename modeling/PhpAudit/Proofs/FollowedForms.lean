import PhpAudit.Proofs.GrammarRules
import PhpAudit.Proofs.Reading

/-!
Readers that follow forms of the grammar. A reader follows a form if, wherever the parts kept for
later tell what the grammar answers, it takes as many characters as the form answers, and fails where
the form does. Each way to build a reader has its counterpart among the forms.
-/

namespace PhpAudit

open Form

/-! What is kept at a place -/

/-- The parts take of the text what the grammar answers for it. -/
structure Parts.Tell (text : List Char) (parts : Parts) : Prop where
  hint : Answers Symbol.rules (.symbol .typeHint) text (parts.hint.get.map Taken.length)
  unary : Answers Symbol.rules (.symbol .unary) text (parts.unary.get.map Taken.length)
  binary : Answers Symbol.rules (.symbol .binary) text (parts.binary.get.map Taken.length)
  ternary : Answers Symbol.rules (.symbol .ternary) text (parts.ternary.get.map Taken.length)
  expression : Answers Symbol.rules (.symbol .expression) text (parts.expression.get.map Taken.length)
  statement : Answers Symbol.rules (.symbol .statement) text (parts.statement.get.map Taken.length)

namespace Cursor

variable {limit : Nat} {own : Bool} {cursor later : Cursor} {passed : List Char}

theorem Passes.drop (passes : cursor.Passes passed later) :
    cursor.rest.drop passed.length = later.rest := by
  rw [passes.rest, List.drop_left]

/-- The text ahead is shorter than the limit. The parts of the places behind the cursor tell what the
grammar answers there, and those of its own place do so if they have to. -/
structure Told (limit : Nat) (own : Bool) (cursor : Cursor) : Prop where
  bound : cursor.rest.length < limit
  tell : ∀ passed rest, cursor.rest = passed ++ rest → own = true ∨ passed ≠ [] →
    ∃ parts ∈ (cursor.parts.drop passed.length).head?, parts.Tell rest

theorem Told.passes (told : cursor.Told limit own) (passes : cursor.Passes passed later)
    {forward : Bool} (moved : forward = true → own = true ∨ passed ≠ []) :
    later.Told limit forward where
  bound := by
    have := told.bound
    rw [passes.rest, List.length_append] at this
    omega
  tell more rest ahead known := by
    have whole : cursor.rest = (passed ++ more) ++ rest := by
      rw [passes.rest, ahead, List.append_assoc]
    have known' : own = true ∨ passed ++ more ≠ [] := by
      rcases known with forth | more
      · exact (moved forth).imp id fun some none => some (List.append_eq_nil_iff.mp none).1
      · exact .inr fun none => more (List.append_eq_nil_iff.mp none).2
    obtain ⟨parts, head, tell⟩ := told.tell _ _ whole known'
    refine ⟨parts, ?_, tell⟩
    rwa [passes.parts, List.drop_drop, ← List.length_append]

/-- A cursor that is told about its own place too. -/
theorem Told.weaken (told : cursor.Told limit true) : cursor.Told limit own :=
  told.passes (Passes.refl cursor) fun _ => .inl rfl

theorem passes_take {length : Nat} (bound : length ≤ cursor.rest.length) :
    ∃ passed, cursor.Passes passed (cursor.advance length) ∧ passed.length = length :=
  ⟨_, passes_advance length cursor, List.length_take_of_le bound⟩

end Cursor

/-- Whether the form takes a character whenever it does not fail. -/
def Form.solid (form : Form Symbol) : Bool := !form.mayBeEmpty Symbol.mayBeEmpty

theorem Form.length_pos {form : Form Symbol} (solid : form.solid = true) {text : List Char}
    {length : Nat} (taken : Answers Symbol.rules form text (some length)) : 0 < length := by
  refine Grammar.Ordered.positive Symbol.ordered ?_ taken
  rwa [Form.solid, Bool.not_eq_true'] at solid

namespace Reader

variable {First Second Value : Type} {limit : Nat} {own : Bool}

/-- The reader takes at the cursor what the form answers. -/
def AnswersAt (reader : Reader Value) (form : Form Symbol) (cursor : Cursor) : Prop :=
  Answers Symbol.rules form cursor.rest ((reader.taken cursor).map Taken.length)

section AnswersAt

variable {reader : Reader Value} {form : Form Symbol} {cursor later : Cursor} {value : Value}
  {passed : List Char}

theorem AnswersAt.fails (fails : reader.Fails cursor)
    (answer : Answers Symbol.rules form cursor.rest none) : reader.AnswersAt form cursor := by
  have nothing : reader.taken cursor = none := by
    simp only [taken, show reader.run cursor = none from fails]
  rwa [AnswersAt, nothing]

theorem taken_length (read : reader.run cursor = some (value, later))
    (passes : cursor.Passes passed later) :
    (reader.taken cursor).map Taken.length = some passed.length := by
  simp only [taken, read, Option.map_some, passes.offset, Nat.add_sub_cancel_left]

theorem AnswersAt.takes (read : reader.run cursor = some (value, later))
    (passes : cursor.Passes passed later)
    (answer : Answers Symbol.rules form cursor.rest (some passed.length)) :
    reader.AnswersAt form cursor := by
  rwa [AnswersAt, taken_length read passes]

/-- The reader fails and so does the form, or both take the same characters. -/
theorem AnswersAt.cases (answers : reader.AnswersAt form cursor) :
    (reader.Fails cursor ∧ Answers Symbol.rules form cursor.rest none) ∨
      ∃ value later passed, reader.run cursor = some (value, later) ∧ cursor.Passes passed later ∧
        Answers Symbol.rules form cursor.rest (some passed.length) := by
  cases read : reader.run cursor with
  | none =>
      simp only [AnswersAt, taken, read, Option.map_none] at answers
      exact .inl ⟨read, answers⟩
  | some found =>
      obtain ⟨passed, passes⟩ := reader.moves read
      rw [AnswersAt, taken_length read passes] at answers
      exact .inr ⟨found.1, found.2, passed, rfl, passes, answers⟩

theorem AnswersAt.congr {other : Reader Value} (same : reader.run cursor = other.run cursor)
    (answers : other.AnswersAt form cursor) : reader.AnswersAt form cursor := by
  rwa [AnswersAt, taken, same]

/-- The reader goes on as another one does at a later cursor. -/
theorem AnswersAt.onward {other : Reader Value} {back : Form Symbol}
    (passes : cursor.Passes passed later) (run : reader.run cursor = other.run later)
    (answers : other.AnswersAt back later)
    (whole : ∀ {answer}, Answers Symbol.rules back (cursor.rest.drop passed.length) answer →
      Answers Symbol.rules form cursor.rest (answer.map (passed.length + ·))) :
    reader.AnswersAt form cursor := by
  rw [passes.drop] at whole
  rcases answers.cases with ⟨fails, nothing⟩ | ⟨value, last, more, read, further, answer⟩
  · exact .fails (run.trans fails) (whole nothing)
  · refine .takes (run.trans read) (passes.trans further) ?_
    rw [List.length_append]
    exact whole answer

theorem AnswersAt.wrap (function : Value → Second) (answers : reader.AnswersAt form cursor) :
    (reader >>= fun value => pure (function value)).AnswersAt form cursor := by
  rcases answers.cases with ⟨fails, nothing⟩ | ⟨value, later, passed, read, passes, answer⟩
  · exact .fails fails.bind nothing
  · exact .takes (run_bind_of_some read) passes answer

end AnswersAt

/-- The reader takes what the form answers at every cursor that is told about the places behind it. -/
def Follows (limit : Nat) (own : Bool) (reader : Reader Value) (form : Form Symbol) : Prop :=
  ∀ ⦃cursor : Cursor⦄, cursor.Told limit own → reader.AnswersAt form cursor

namespace Follows

variable {reader other : Reader Value} {form front back : Form Symbol}

theorem weaken (follows : Follows limit own reader form) : Follows limit true reader form :=
  fun _ told => follows told.weaken

theorem alike (follows : Follows limit own reader front) (same : Alike Symbol.rules front back) :
    Follows limit own reader back :=
  fun _ told => same (follows told)

theorem symbol {symbol : Symbol} (body : Follows limit own reader (Symbol.rules symbol)) :
    Follows limit own reader (.symbol symbol) :=
  body.alike (.symbol rfl)

/-! Readers that do not move -/

theorem give {value : Value} : Follows limit own (pure value) .empty :=
  fun cursor _ => .takes rfl (.refl cursor) .empty

theorem still {next : First → Reader Value} {value : Cursor → First} {reader : Reader First}
    (stays : ∀ cursor, reader.run cursor = some (value cursor, cursor))
    (rest : ∀ value, Follows limit own (next value) form) :
    Follows limit own (reader >>= next) form := by
  intro cursor told
  exact .congr (run_bind_of_some (stays cursor)) (rest (value cursor) told)

theorem here {next : Span → Reader Value} (rest : ∀ span, Follows limit own (next span) form) :
    Follows limit own (Reader.here >>= next) form :=
  still (fun _ => rfl) rest

theorem cursor {next : Cursor → Reader Value} (rest : ∀ place, Follows limit own (next place) form) :
    Follows limit own (Reader.cursor >>= next) form :=
  still (fun _ => rfl) rest

/-! One after the other -/

theorem bind {reader : Reader First} {next : First → Reader Value}
    (first : Follows limit own reader front)
    (rest : ∀ value, Follows limit (front.solid || own) (next value) back) :
    Follows limit own (reader >>= next) (.row front back) := by
  intro cursor told
  rcases (first told).cases with ⟨fails, nothing⟩ | ⟨value, middle, passed, read, passes, taken⟩
  · exact .fails fails.bind (.rowFront nothing)
  · have toldThere : middle.Told limit (front.solid || own) := by
      refine told.passes passes fun either => ?_
      rcases Bool.or_eq_true_iff.mp either with solid | known
      · exact .inr (List.length_pos_iff.mp (length_pos solid taken))
      · exact .inl known
    exact .onward passes (run_bind_of_some read) (rest value toldThere) taken.append

/-- What stands behind the reader does not move. -/
theorem last {reader : Reader First} {next : First → Reader Value}
    (first : Follows limit own reader form)
    (rest : ∀ value, Follows limit (form.solid || own) (next value) .empty) :
    Follows limit own (reader >>= next) form :=
  (first.bind rest).alike .row_empty

theorem map {reader : Reader First} {function : First → Value} (follows : Follows limit own reader form) :
    Follows limit own (function <$> reader) form :=
  follows.last fun _ => give

theorem discard (follows : Follows limit own reader form) :
    Follows limit own (discard reader) form :=
  follows.map

/-! Lexemes -/

theorem lexeme {rule : Lexeme} {token : Token} (same : token.rule = rule) :
    Follows limit own (Reader.lexeme rule) (.token token) := by
  subst same
  intro cursor told
  cases taken : token.rule cursor.rest with
  | none => exact .fails (.lexeme taken) (.token taken)
  | some length =>
      obtain ⟨passed, passes, size⟩ := cursor.passes_take (token.solid taken).2
      have read : (Reader.lexeme token.rule).run cursor =
          some (String.ofList (cursor.rest.take length), cursor.advance length) := by
        simp only [Reader.lexeme, taken]
      exact .takes read passes (.token (size ▸ taken))

theorem token {rule : Lexeme} {token : Token} (same : token.rule = rule) :
    Follows limit own (Reader.token rule) (.token token) := by
  subst same
  intro cursor told
  cases taken : token.rule cursor.rest with
  | none => exact .fails (.token taken) (.token taken)
  | some length =>
      obtain ⟨passed, passes, size⟩ := cursor.passes_take (token.solid taken).2
      have read : (Reader.token token.rule).run cursor = some ((), cursor.advance length) := by
        simp only [Reader.token, taken]
      exact .takes read passes (.token (size ▸ taken))

theorem mark {text : String} {filled : text ≠ ""} :
    Follows limit own (Reader.mark text) (.token (.mark text filled)) :=
  token rfl

theorem keyword {word : String} {filled : word ≠ ""} :
    Follows limit own (Reader.keyword word) (.token (.keyword word filled)) :=
  token rfl

theorem skip : Follows limit own Reader.skip .trivia := by
  intro cursor told
  obtain ⟨passed, passes, size⟩ := cursor.passes_take (Lexeme.triviaFrom_le 0 cursor.rest)
  exact .takes rfl passes (size ▸ .trivia)

/-! Alternatives -/

theorem fail : Follows limit own (failure : Reader Value) (choices []) :=
  fun _ _ => .fails rfl (.absentFails .empty)

theorem orElse (first : Follows limit own reader front) (second : Follows limit own other back) :
    Follows limit own (reader <|> other) (.choice front back) := by
  intro cursor told
  rcases (first told).cases with ⟨fails, nothing⟩ | ⟨value, later, passed, read, passes, answer⟩
  · rcases (second told).cases with ⟨failsToo, nothingToo⟩ | ⟨value, later, passed, read, passes, answer⟩
    · exact .fails (fails.orElse failsToo) (.choiceOther nothing nothingToo)
    · exact .takes (fails.run_orElse.trans read) passes (.choiceOther nothing answer)
  · exact .takes (run_orElse_of_some read) passes (.choice answer)

theorem fail_last (follows : Follows limit own reader form) :
    Follows limit own (reader <|> failure) form :=
  (follows.orElse fail).alike .choice_fails

theorem perhaps (follows : Follows limit own reader form) :
    Follows limit own (Reader.perhaps reader) (.optional form) :=
  follows.map.orElse give

theorem given (follows : Follows limit own reader form) :
    Follows limit own (Reader.given reader) (.optional form) :=
  (follows.discard.last fun _ => give).orElse give

theorem ahead (follows : Follows limit own reader form) :
    Follows limit own (Reader.ahead reader) (.ahead form) := by
  intro cursor told
  rcases (follows told).cases with ⟨fails, nothing⟩ | ⟨value, later, passed, read, passes, answer⟩
  · have failsToo : (Reader.ahead reader).Fails cursor := by
      simp only [Fails, Reader.ahead, show reader.run cursor = none from fails]
    exact .fails failsToo (.aheadFails nothing)
  · have found : (Reader.ahead reader).run cursor = some ((), cursor) := by
      simp only [Reader.ahead, read]
    exact .takes found (.refl cursor) (.ahead answer)

theorem absent (follows : Follows limit own reader form) :
    Follows limit own (Reader.absent reader) (.absent form) := by
  intro cursor told
  rcases (follows told).cases with ⟨fails, nothing⟩ | ⟨value, later, passed, read, passes, answer⟩
  · have found : (Reader.absent reader).run cursor = some ((), cursor) := by
      simp only [Reader.absent, show reader.run cursor = none from fails]
    exact .takes found (.refl cursor) (.absent nothing)
  · have failsToo : (Reader.absent reader).Fails cursor := by
      simp only [Fails, Reader.absent, read]
    exact .fails failsToo (.absentFails answer)

/-! Repetitions -/

/-- With a limit above the length of the text, no repetition is cut short. -/
theorem many_cases (follows : Follows limit own reader form) (solid : form.solid = true) {count : Nat}
    {cursor : Cursor} (told : cursor.Told limit own) (room : cursor.rest.length < count) :
    (reader.Fails cursor ∧ Answers Symbol.rules form cursor.rest none) ∨
      ∃ first others later passed, (Reader.many count reader).run cursor = some (first :: others, later) ∧
        cursor.Passes passed later ∧ passed ≠ [] ∧
        Answers Symbol.rules (.plus form) cursor.rest (some passed.length) := by
  induction count generalizing own cursor with
  | zero => exact absurd room (Nat.not_lt_zero _)
  | succ count ih =>
      refine (follows told).cases.imp id ?_
      rintro ⟨first, middle, passed, read, passes, answer⟩
      have moved := List.length_pos_iff.mp (length_pos solid answer)
      have toldThere : middle.Told limit true := told.passes passes fun _ => .inr moved
      have shorter : middle.rest.length < count := by
        have := length_pos solid answer
        rw [passes.rest, List.length_append] at room
        omega
      rcases ih follows.weaken toldThere shorter with
        ⟨fails, nothing⟩ | ⟨second, others, later, more, run, further, _, answers⟩
      · have done := Answers.starEnd nothing
        rw [← passes.drop] at done
        exact ⟨first, [], middle, passed, run_many_some read (fails.many count), passes, moved,
          .row answer done⟩
      · refine ⟨first, second :: others, later, passed ++ more, run_many_some read run,
          passes.trans further, List.append_ne_nil_of_left_ne_nil moved more, ?_⟩
        rw [List.length_append]
        exact .row answer (passes.drop ▸ answers.star_of_plus)

theorem many (solid : form.solid = true) (follows : Follows limit own reader form) :
    Follows limit own (Reader.many limit reader) (.star form) := by
  intro cursor told
  rcases follows.many_cases solid told told.bound with
    ⟨fails, nothing⟩ | ⟨first, others, later, passed, run, passes, _, answers⟩
  · exact .takes (fails.many limit) (.refl cursor) (.starEnd nothing)
  · exact .takes run passes answers.star_of_plus

/-- What stands behind a repetition depends on whether anything is repeated. -/
theorem many_then {next : List Value → Reader Second} {more : Form Symbol}
    (solid : form.solid = true) (follows : Follows limit own reader form) (nothing : Follows limit own (next []) back)
    (something : ∀ first others, Follows limit true (next (first :: others)) more)
    (apart : ∀ {text rest}, Answers Symbol.rules more rest none → Answers Symbol.rules back text none) :
    Follows limit own (Reader.many limit reader >>= next) (.choice (.row (.plus form) more) back) := by
  intro cursor told
  rcases follows.many_cases solid told told.bound with
    ⟨fails, none⟩ | ⟨first, others, middle, passed, run, passes, moved, taken⟩
  · exact .congr (run_bind_of_some (fails.many limit)) <|
      Answers.choiceOther (.rowFront (.rowFront none)) (nothing told)
  · have toldThere : middle.Told limit true := told.passes passes fun _ => .inr moved
    refine .onward passes (run_bind_of_some run) (something first others toldThere) ?_
    rintro (_ | length) answer
    · exact .choiceOther (.rowBack taken answer) (apart answer)
    · exact .choice (.row taken answer)

/-! Steps of a rule -/

section Steps

variable {next : Unit → Reader Value}

theorem skip_then (rest : Follows limit own (next ()) form) :
    Follows limit own (Reader.skip >>= next) (.row .trivia form) :=
  skip.bind fun _ => rest

theorem token_then {rule : Lexeme} {token : Token} (same : token.rule = rule)
    (rest : Follows limit true (next ()) form) :
    Follows limit own (Reader.token rule >>= next) (.row (.token token) form) :=
  (Follows.token same).bind fun _ => rest

theorem mark_then {text : String} {filled : text ≠ ""} (rest : Follows limit true (next ()) form) :
    Follows limit own (Reader.mark text >>= next) (.row (.token (.mark text filled)) form) :=
  mark.bind fun _ => rest

theorem keyword_then {word : String} {filled : word ≠ ""} (rest : Follows limit true (next ()) form) :
    Follows limit own (Reader.keyword word >>= next) (.row (.token (.keyword word filled)) form) :=
  keyword.bind fun _ => rest

theorem lexeme_then {next : String → Reader Value} {rule : Lexeme} {token : Token}
    (same : token.rule = rule) (rest : ∀ text, Follows limit true (next text) form) :
    Follows limit own (Reader.lexeme rule >>= next) (.row (.token token) form) :=
  (Follows.lexeme same).bind rest

end Steps

/-! Lists -/

theorem commaList (follows : Follows limit own reader form) :
    Follows limit own (Reader.commaList limit reader) (Symbol.commaList form) := by
  refine follows.bind fun first => last (many rfl ?_) fun rest => give
  exact skip_then <| mark_then <| skip_then follows.weaken

theorem trailingCommaList (follows : Follows limit own reader form) :
    Follows limit own (Reader.trailingCommaList limit reader) (Symbol.trailingCommaList form) := by
  refine last (perhaps ?_) fun items => give
  exact follows.commaList.bind fun items => skip_then <| last (perhaps mark).discard fun _ => give

/-! Kept parts -/

/-- A kept part is taken if the parts of the place tell what its symbol answers. -/
theorem part {select : Parts → Thunk (Option (Taken Value))} {symbol : Symbol}
    (tells : ∀ {text parts}, parts.Tell text →
      Answers Symbol.rules (.symbol symbol) text ((select parts).get.map Taken.length)) :
    Follows limit true (Reader.part select) (.symbol symbol) := by
  intro cursor told
  obtain ⟨parts, head, tell⟩ := told.tell [] cursor.rest rfl (.inl rfl)
  have answer := tells tell
  obtain ⟨others, kept⟩ : ∃ others, cursor.parts = parts :: others := by
    cases ahead : cursor.parts with
    | nil => simp [ahead] at head
    | cons first others =>
        simp only [ahead, List.length_nil, List.drop_zero, List.head?_cons, Option.mem_some_iff] at head
        exact ⟨others, head ▸ rfl⟩
  cases found : (select parts).get with
  | none =>
      rw [found] at answer
      have fails : (Reader.part select).Fails cursor := by
        simp only [Fails, Reader.part, kept, found]
      exact .fails fails answer
  | some taken =>
      rw [found] at answer
      have read : (Reader.part select).run cursor = some (taken.value, cursor.pass taken) := by
        simp only [Reader.part, kept, found]
      obtain ⟨passed, passes, size⟩ := cursor.passes_take answer.length_le
      have passesToo : cursor.Passes passed (cursor.pass taken) :=
        ⟨passes.rest, passes.span, passes.offset, passes.parts, fun misread => by
          simp [Cursor.pass, misread]⟩
      exact .takes read passesToo (size ▸ answer)

theorem heldHint : Follows limit true (Nested.held limit).hint (.symbol .typeHint) :=
  part fun tell => tell.hint

theorem heldUnary : Follows limit true (Nested.held limit).unary (.symbol .unary) :=
  part fun tell => tell.unary

theorem heldBinary : Follows limit true (Nested.held limit).binary (.symbol .binary) :=
  part fun tell => tell.binary

theorem heldTernary : Follows limit true (Nested.held limit).ternary (.symbol .ternary) :=
  part fun tell => tell.ternary

theorem heldExpression : Follows limit true (Nested.held limit).expression (.symbol .expression) :=
  part fun tell => tell.expression

theorem heldStatement : Follows limit true (Nested.held limit).statement (.symbol .statement) :=
  part fun tell => tell.statement

end Follows

end Reader

end PhpAudit
