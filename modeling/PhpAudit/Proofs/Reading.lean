import PhpAudit.Reader.Program

/-!
Reasoning about readers. A statement about a reader says what it gives at every cursor that one
fixed cursor reaches, so the parts of a rule whose values do not matter can be passed over
without naming the cursors between them. What the parts nested in a rule give is assumed as a
contract; a grammar that meets the contract wherever its parts do meets it at every place.
-/

namespace PhpAudit

/-- What holds of the characters in a list is decided by going through the list, and not through all
characters. -/
instance (priority := 2000) decidableForallMem (test : Char → Prop) [DecidablePred test]
    (characters : List Char) : Decidable (∀ character ∈ characters, test character) :=
  List.decidableBAll test characters

namespace Reader

variable {First Second Value : Type}

theorem run_bind {reader : Reader First} {next : First → Reader Second} {cursor later : Cursor}
    {value : Second} (read : (reader >>= next).run cursor = some (value, later)) :
    ∃ first middle, reader.run cursor = some (first, middle) ∧
      (next first).run middle = some (value, later) := by
  change (sequence reader next).run cursor = some (value, later) at read
  cases step : reader.run cursor with
  | none => simp [sequence, step] at read
  | some pair =>
      simp only [sequence, step] at read
      exact ⟨pair.1, pair.2, rfl, read⟩

theorem run_orElse {first second : Reader Value} {cursor : Cursor} {result : Value × Cursor}
    (read : (first <|> second).run cursor = some result) :
    first.run cursor = some result ∨ second.run cursor = some result := by
  change (choose first fun _ => second).run cursor = some result at read
  cases tried : first.run cursor with
  | none =>
      simp only [choose, tried] at read
      exact Or.inr read
  | some found =>
      simp only [choose, tried] at read
      exact Or.inl read

theorem run_perhaps {reader : Reader Value} {cursor later : Cursor} {found : Option Value}
    (read : (perhaps reader).run cursor = some (found, later)) :
    (∃ value, found = some value ∧ reader.run cursor = some (value, later)) ∨
      found = none ∧ later = cursor := by
  rcases run_orElse read with taken | nothing
  · obtain ⟨value, middle, step, wrapped⟩ := run_bind taken
    cases wrapped
    exact .inl ⟨value, rfl, step⟩
  · cases nothing
    exact .inr ⟨rfl, rfl⟩

theorem run_given {reader : Reader Value} {cursor later : Cursor} {flag : Bool}
    (read : (given reader).run cursor = some (flag, later)) :
    (∃ value, flag = true ∧ reader.run cursor = some (value, later)) ∨
      flag = false ∧ later = cursor := by
  rcases run_orElse read with taken | nothing
  · obtain ⟨_, middle, dropped, answer⟩ := run_bind taken
    obtain ⟨value, last, step, unit⟩ := run_bind dropped
    cases unit
    cases answer
    exact .inl ⟨value, rfl, step⟩
  · cases nothing
    exact .inr ⟨rfl, rfl⟩

theorem run_bind_of_some {reader : Reader First} {next : First → Reader Second}
    {cursor later : Cursor} {value : First} (read : reader.run cursor = some (value, later)) :
    (reader >>= next).run cursor = (next value).run later := by
  change (sequence reader next).run cursor = (next value).run later
  simp only [sequence, read]

theorem run_orElse_of_some {first second : Reader Value} {cursor : Cursor}
    {result : Value × Cursor} (read : first.run cursor = some result) :
    (first <|> second).run cursor = some result := by
  change (choose first fun _ => second).run cursor = some result
  simp only [choose, read]

theorem run_many_some {reader : Reader Value} {value : Value} {values : List Value}
    {cursor middle later : Cursor} {limit : Nat} (first : reader.run cursor = some (value, middle))
    (rest : (many limit reader).run middle = some (values, later)) :
    (many (limit + 1) reader).run cursor = some (value :: values, later) :=
  run_orElse_of_some ((run_bind_of_some first).trans (run_bind_of_some rest))

/-- A repetition reads nothing, or a first value and then the rest. -/
theorem run_many_succ {reader : Reader Value} {values : List Value} {cursor later : Cursor}
    {limit : Nat} (read : (many (limit + 1) reader).run cursor = some (values, later)) :
    values = [] ∧ later = cursor ∨
      ∃ first middle rest, values = first :: rest ∧ reader.run cursor = some (first, middle) ∧
        (many limit reader).run middle = some (rest, later) := by
  rcases run_orElse read with some | none
  · obtain ⟨first, middle, taken, some⟩ := run_bind some
    obtain ⟨rest, _, others, given⟩ := run_bind some
    cases given
    exact .inr ⟨first, middle, rest, rfl, taken, others⟩
  · cases none
    exact .inl ⟨rfl, rfl⟩

def Fails (reader : Reader Value) (cursor : Cursor) : Prop :=
  reader.run cursor = none

namespace Fails

variable {cursor later : Cursor}

theorem bind {reader : Reader First} {next : First → Reader Value}
    (fails : reader.Fails cursor) : (reader >>= next).Fails cursor := by
  change (sequence reader next).run cursor = none
  simp only [sequence, show reader.run cursor = none from fails]

/-- The first reader succeeds and the next one fails behind it. -/
theorem after {reader : Reader First} {next : First → Reader Value} {value : First}
    (read : reader.run cursor = some (value, later)) (fails : (next value).Fails later) :
    (reader >>= next).Fails cursor :=
  (run_bind_of_some read).trans fails

theorem here {next : Span → Reader Value} (fails : (next cursor.span).Fails cursor) :
    (Reader.here >>= next).Fails cursor :=
  after rfl fails

theorem run_orElse {first second : Reader Value} (fails : first.Fails cursor) :
    (first <|> second).run cursor = second.run cursor := by
  change (choose first fun _ => second).run cursor = second.run cursor
  simp only [choose, show first.run cursor = none from fails]

theorem orElse {first second : Reader Value} (before : first.Fails cursor)
    (behind : second.Fails cursor) : (first <|> second).Fails cursor :=
  before.run_orElse.trans behind

theorem map {reader : Reader First} {function : First → Value} (fails : reader.Fails cursor) :
    (function <$> reader).Fails cursor :=
  fails.bind

theorem token {rule : Lexeme} (fails : rule cursor.rest = none) :
    (Reader.token rule).Fails cursor := by
  simp only [Fails, Reader.token, fails]

theorem lexeme {rule : Lexeme} (fails : rule cursor.rest = none) :
    (Reader.lexeme rule).Fails cursor := by
  simp only [Fails, Reader.lexeme, fails]

theorem perhaps {reader : Reader Value} (fails : reader.Fails cursor) :
    (Reader.perhaps reader).run cursor = some (none, cursor) :=
  fails.map.run_orElse

theorem given {reader : Reader Value} (fails : reader.Fails cursor) :
    (Reader.given reader).run cursor = some (false, cursor) :=
  fails.bind.bind.run_orElse

theorem many {reader : Reader Value} (fails : reader.Fails cursor) (limit : Nat) :
    (Reader.many limit reader).run cursor = some ([], cursor) := by
  cases limit with
  | zero => rfl
  | succ limit => exact fails.bind.run_orElse

theorem firstOf {nested : Nested} {readers : List (Nested → Reader Stmt)}
    (each : ∀ reader ∈ readers, (reader nested).Fails cursor) :
    (readers.foldr (fun reader others => Reader.lone (reader nested) <|> others)
      failure).Fails cursor := by
  induction readers with
  | nil => rfl
  | cons reader rest ih =>
      obtain ⟨first, others⟩ := List.forall_mem_cons.mp each
      exact first.bind.orElse (ih others)

end Fails

theorem forall_mem_getD_nil {Value : Type} {good : Value → Prop} {found : Option (List Value)}
    (each : ∀ values ∈ found, ∀ value ∈ values, good value) :
    ∀ value ∈ found.getD [], good value := by
  cases found with
  | none => simp
  | some values => exact each values rfl

/-- From every cursor that the start reaches, what the reader gives is as described. -/
def Gives (start : Cursor) (reader : Reader Value) (result : Value → Cursor → Prop) : Prop :=
  ∀ ⦃cursor value later⦄, start.Reaches cursor → reader.run cursor = some (value, later) →
    result value later

namespace Gives

variable {start : Cursor} {result : Value → Cursor → Prop}

theorem weaken {reader : Reader Value} {stronger : Value → Cursor → Prop}
    (gives : Gives start reader stronger)
    (weaker : ∀ value later, start.Reaches later → stronger value later → result value later) :
    Gives start reader result := by
  intro cursor value later reached read
  exact weaker value later (reached.trans (reader.moves read)) (gives reached read)

theorem later {reader : Reader Value} {place : Cursor} (gives : Gives start reader result)
    (reached : start.Reaches place) : Gives place reader result := by
  intro cursor value later further read
  exact gives (reached.trans further) read

theorem give {value : Value} (holds : ∀ later, start.Reaches later → result value later) :
    Gives start (pure value) result := by
  intro cursor value later reached read
  cases read
  exact holds cursor reached

theorem fail : Gives start (failure : Reader Value) result := by
  intro cursor value later reached read
  cases read

theorem bind {reader : Reader First} {next : First → Reader Value}
    {between : First → Cursor → Prop} (first : Gives start reader between)
    (rest : ∀ value place, start.Reaches place → between value place →
      Gives place (next value) result) :
    Gives start (reader >>= next) result := by
  intro cursor value later reached read
  obtain ⟨found, middle, step, read⟩ := run_bind read
  have further := reached.trans (reader.moves step)
  exact rest found middle further (first reached step) (Cursor.Reaches.refl middle) read

/-- What the first reader gives is described without its place. -/
theorem next {reader : Reader First} {next : First → Reader Value} {good : First → Prop}
    (first : Gives start reader fun value _ => good value)
    (rest : ∀ value, good value → Gives start (next value) result) :
    Gives start (reader >>= next) result :=
  first.bind fun value _ reached holds => (rest value holds).later reached

/-- What the first reader gives does not matter. -/
theorem pass {reader : Reader First} {next : First → Reader Value}
    (rest : ∀ value, Gives start (next value) result) : Gives start (reader >>= next) result := by
  have first : Gives start reader fun _ _ => True := fun _ _ _ _ _ => trivial
  exact first.next fun value _ => rest value

theorem here {next : Span → Reader Value}
    (rest : ∀ place, start.Reaches place → Gives place (next place.span) result) :
    Gives start (Reader.here >>= next) result := by
  intro cursor value later reached read
  obtain ⟨span, middle, step, read⟩ := run_bind read
  cases step
  exact rest cursor reached (Cursor.Reaches.refl cursor) read

theorem orElse {first second : Reader Value} (before : Gives start first result)
    (behind : Gives start second result) : Gives start (first <|> second) result := by
  intro cursor value later reached read
  rcases run_orElse read with read | read
  · exact before reached read
  · exact behind reached read

theorem map {reader : Reader First} {function : First → Value}
    (gives : Gives start reader fun value later => result (function value) later) :
    Gives start (function <$> reader) result := by
  intro cursor value later reached read
  obtain ⟨found, middle, step, read⟩ := run_bind read
  cases read
  exact gives reached step

theorem perhaps {reader : Reader First} {result : Option First → Cursor → Prop}
    (gives : Gives start reader fun value later => result (some value) later)
    (nothing : ∀ later, start.Reaches later → result none later) :
    Gives start (Reader.perhaps reader) result :=
  gives.map.orElse (give nothing)

theorem lone {reader : Reader Stmt} {result : List Stmt → Cursor → Prop}
    (gives : Gives start reader fun statement later => result [statement] later) :
    Gives start (Reader.lone reader) result := by
  intro cursor value later reached read
  obtain ⟨found, middle, step, read⟩ := run_bind read
  cases read
  exact gives reached step

/-- The first reader that succeeds gives the statement. -/
theorem firstOf {nested : Nested} {readers : List (Nested → Reader Stmt)}
    {result : List Stmt → Cursor → Prop}
    (each : ∀ reader ∈ readers,
      Gives start (reader nested) fun statement later => result [statement] later) :
    Gives start (readers.foldr (fun reader others => Reader.lone (reader nested) <|> others)
      failure) result := by
  induction readers with
  | nil => exact fail
  | cons reader rest ih =>
      obtain ⟨first, others⟩ := List.forall_mem_cons.mp each
      exact (lone first).orElse (ih others)

/-- Repetition, where each value leads on from the cursor that the one before it left. -/
theorem many {reader : Reader Value} (step : Cursor → Value → Cursor → Prop)
    (chain : Cursor → List Value → Cursor → Prop)
    (nil : ∀ {first last}, first.Reaches last → chain first [] last)
    (cons : ∀ {first value middle rest last}, step first value middle →
      chain middle rest last → chain first (value :: rest) last)
    (each : ∀ place, start.Reaches place → Gives place reader (step place)) (limit : Nat) :
    Gives start (Reader.many limit reader) (chain start) := by
  induction limit generalizing start with
  | zero => exact give fun _ reached => nil reached
  | succ limit ih =>
      refine orElse ?_ (give fun _ reached => nil reached)
      intro cursor values later reached read
      obtain ⟨first, middle, taken, read⟩ := run_bind read
      obtain ⟨rest, last, others, read⟩ := run_bind read
      cases read
      -- The rest is described from the cursor behind the first value, not from the start.
      have toMiddle := reached.trans (reader.moves taken)
      have chained : Gives middle (Reader.many limit reader) (chain middle) :=
        ih fun place further => each place (toMiddle.trans further)
      exact cons (each start (Cursor.Reaches.refl start) reached taken)
        (chained (Cursor.Reaches.refl middle) others)

section Values

/-! What holds of values wherever they stand. -/

variable {good : Value → Prop} {reader : Reader Value}

theorem followed {trailer : Reader First} (gives : Gives start reader fun value _ => good value) :
    Gives start (reader >>= fun value => trailer >>= fun _ => pure value)
      fun value _ => good value :=
  gives.next fun _ holds => pass fun _ => give fun _ _ => holds

theorem each (gives : Gives start reader fun value _ => good value) (limit : Nat) :
    Gives start (Reader.many limit reader) fun values _ => ∀ value ∈ values, good value := by
  refine many (fun _ value _ => good value)
    (fun _ values _ => ∀ value ∈ values, good value) ?_ ?_ ?_ limit
  · intro _ _ _ value member
    cases member
  · intro _ value _ rest _ first others
    exact List.forall_mem_cons.mpr ⟨first, others⟩
  · intro place reached
    exact gives.later reached

theorem option (gives : Gives start reader fun value _ => good value) :
    Gives start (Reader.perhaps reader) fun found _ => ∀ value ∈ found, good value := by
  refine perhaps (gives.weaken ?_) ?_
  · intro value _ _ holds found same
    cases same
    exact holds
  · intro _ _ found same
    cases same

theorem commaList (gives : Gives start reader fun value _ => good value) (limit : Nat) :
    Gives start (Reader.commaList limit reader) fun values _ => ∀ value ∈ values, good value := by
  refine gives.next fun first firstGood => ?_
  refine (each (pass fun _ => pass fun _ => pass fun _ => gives) limit).next ?_
  intro rest restGood
  exact give fun _ _ => List.forall_mem_cons.mpr ⟨firstGood, restGood⟩

theorem trailingCommaList (gives : Gives start reader fun value _ => good value) (limit : Nat) :
    Gives start (Reader.trailingCommaList limit reader)
      fun values _ => ∀ value ∈ values, good value := by
  have items : Gives start (do
      let items ← Reader.commaList limit reader
      skip
      discard (Reader.perhaps (mark ","))
      return items) fun values _ => ∀ value ∈ values, good value := by
    refine (gives.commaList limit).next fun values valuesGood => ?_
    exact pass fun _ => pass fun _ => give fun _ _ => valuesGood
  exact items.option.next fun _ found => give fun _ _ => forall_mem_getD_nil found

end Values

end Gives

end Reader

/-- A place with the text ahead of it. -/
structure Point where
  rest : List Char
  span : Span

namespace Point

def skip (point : Point) (count : Nat) : Point :=
  ⟨point.rest.drop count, point.span.after (point.rest.take count)⟩

end Point

/-- A successful reading: the value with the places before and behind it, and whether a word in
it was misread. -/
structure Passage (Value : Type) where
  before : Point
  value : Value
  behind : Point
  misread : Bool

namespace Cursor

def point (cursor : Cursor) : Point := ⟨cursor.rest, cursor.span⟩

theorem Passes.point {cursor later : Cursor} {passed : List Char}
    (passes : cursor.Passes passed later) : later.point = cursor.point.skip passed.length := by
  simp [Cursor.point, Point.skip, passes.rest, passes.span]

theorem rest_advance (count : Nat) (cursor : Cursor) :
    (cursor.advance count).rest = cursor.rest.drop count := by
  have passes := (passes_advance count cursor).rest
  exact List.append_cancel_left (passes.symm.trans (List.take_append_drop _ _).symm)

theorem pass_point {Value : Type} (cursor : Cursor) (taken : Taken Value) :
    (cursor.pass taken).point = cursor.point.skip taken.length := by
  have passes := passes_advance taken.length cursor
  simp [Cursor.point, Point.skip, pass, rest_advance, passes.span]

end Cursor

theorem Parts.drop_table (nested : Nested) (span : Span) (offset : Nat) (passed rest : List Char) :
    (table nested span offset (passed ++ rest)).drop passed.length =
      table nested (span.after passed) (offset + passed.length) rest := by
  induction passed generalizing span offset with
  | nil => rfl
  | cons character passed ih =>
      have step := ih (span.next character) (offset + 1)
      rw [Nat.add_assoc, Nat.add_comm 1] at step
      exact step

namespace Cursor

/-- The cursor at an offset of a text, with the parts of every place from there on. -/
def onTable (nested : Nested) (text : List Char) (offset : Nat) (misread : Bool) : Cursor :=
  ⟨text.drop offset, ({} : Span).after (text.take offset), offset, misread,
    (Parts.table nested {} 0 text).drop offset⟩

/-- The cursor stands in a text and has the parts of every place behind it. Those of its own place
may be missing. -/
structure Within (nested : Nested) (text : List Char) (cursor : Cursor) : Prop where
  rest : cursor.rest = text.drop cursor.offset
  span : cursor.span = ({} : Span).after (text.take cursor.offset)
  parts : cursor.parts.tail = (Parts.table nested {} 0 text).drop (cursor.offset + 1)

variable {nested : Nested} {text : List Char} {cursor later : Cursor}

theorem within_onTable (offset : Nat) (misread : Bool) :
    (onTable nested text offset misread).Within nested text :=
  ⟨rfl, rfl, List.tail_drop⟩

theorem Within.behind {passed rest : List Char} (whole : text = passed ++ rest) {misread : Bool}
    {parts : List Parts} (behind : parts.tail =
      (Parts.table nested (({} : Span).after passed) passed.length rest).tail) :
    Within nested text ⟨rest, ({} : Span).after passed, passed.length, misread, parts⟩ := by
  subst whole
  refine ⟨by simp, by simp, ?_⟩
  have here := Parts.drop_table nested {} 0 passed rest
  rw [Nat.zero_add] at here
  dsimp only
  rw [behind, ← here, List.tail_drop]

theorem Within.place (within : cursor.Within nested text) {passed : List Char}
    (passes : cursor.Passes passed later) :
    later.rest = text.drop later.offset ∧
      later.span = ({} : Span).after (text.take later.offset) := by
  have taken : passed = (text.drop cursor.offset).take passed.length := by
    rw [← within.rest, passes.rest, List.take_left]
  constructor
  · rw [passes.offset, ← List.drop_drop, ← within.rest, passes.rest, List.drop_left]
  · rw [passes.offset, List.take_add, ← taken, Span.after_append, ← within.span]
    exact passes.span

theorem Within.spanAt_offset (within : cursor.Within nested text)
    (bound : cursor.offset ≤ text.length) : spanAt text cursor.offset = cursor.span := by
  rw [within.span, spanAt, Nat.sub_eq_zero_of_le bound]
  rfl

/-- A cursor that has moved has the parts of its own place too. -/
theorem Within.eq_onTable (within : cursor.Within nested text) {passed : List Char}
    (passes : cursor.Passes passed later) (moved : passed ≠ []) :
    later = onTable nested text later.offset later.misread := by
  obtain ⟨rest, span⟩ := within.place passes
  have parts : later.parts = (Parts.table nested {} 0 text).drop later.offset := by
    obtain ⟨character, others, rfl⟩ := List.exists_cons_of_ne_nil moved
    rw [passes.parts, passes.offset, List.length_cons, ← List.drop_tail, within.parts,
      List.drop_drop]
    congr 1
    omega
  rcases later with ⟨laterRest, laterSpan, offset, misread, laterParts⟩
  dsimp only at rest span parts
  subst rest span parts
  rfl

theorem Within.reaches (within : cursor.Within nested text) (reached : cursor.Reaches later) :
    later.Within nested text := by
  obtain ⟨passed, passes⟩ := reached
  obtain ⟨rest, span⟩ := within.place passes
  refine ⟨rest, span, ?_⟩
  rw [passes.parts, List.tail_drop, passes.offset, ← List.drop_tail, within.parts, List.drop_drop]
  congr 1
  omega

theorem reaches_onTable {offset : Nat} {misread : Bool}
    (reached : (onTable nested text offset misread).Reaches later) :
    later = onTable nested text later.offset later.misread := by
  obtain ⟨passed, passes⟩ := reached
  cases passed with
  | nil =>
      rcases later with ⟨rest, span, laterOffset, laterMisread, parts⟩
      cases passes.rest
      cases passes.span
      cases passes.offset
      cases passes.parts
      rfl
  | cons character others => exact (within_onTable offset misread).eq_onTable passes nofun

end Cursor

/-- What each of the parts that are kept for later gives. -/
structure Contract where
  hint : Passage Hint → Prop
  unary : Passage Expr → Prop
  binary : Passage Expr → Prop
  ternary : Passage Expr → Prop
  expression : Passage Expr → Prop
  statement : Passage (List Stmt) → Prop

/-- What is kept at a place is as promised. -/
def Keeps {Value : Type} (promise : Passage Value → Prop) (point : Point)
    (part : Thunk (Option (Taken Value))) : Prop :=
  ∀ taken, part.get = some taken →
    promise ⟨point, taken.value, point.skip taken.length, taken.misread⟩

/-- The reader keeps the promise at a cursor. -/
def Promises {Value : Type} (promise : Passage Value → Prop) (cursor : Cursor)
    (reader : Reader Value) : Prop :=
  ∀ value later, reader.run cursor = some (value, later) →
    promise ⟨cursor.point, value, later.point, later.misread⟩

theorem Promises.keeps {Value : Type} {promise : Passage Value → Prop} {cursor : Cursor}
    {reader : Reader Value} (promised : Promises promise cursor reader) :
    Keeps promise cursor.point ⟨fun _ => reader.taken cursor⟩ := by
  intro taken found
  change reader.taken cursor = some taken at found
  cases read : reader.run cursor with
  | none => simp [Reader.taken, read] at found
  | some result =>
      obtain ⟨passed, passes⟩ := reader.moves read
      have length : result.2.offset - cursor.offset = passed.length := by
        rw [passes.offset]
        omega
      simp only [Reader.taken, read, length, Option.some.injEq] at found
      subst found
      have kept := promised result.1 result.2 read
      rwa [passes.point] at kept

namespace Contract

/-- Parts that keep the contract at a place. -/
structure Kept (contract : Contract) (point : Point) (parts : Parts) : Prop where
  hint : Keeps contract.hint point parts.hint
  unary : Keeps contract.unary point parts.unary
  binary : Keeps contract.binary point parts.binary
  ternary : Keeps contract.ternary point parts.ternary
  expression : Keeps contract.expression point parts.expression
  statement : Keeps contract.statement point parts.statement

theorem kept_nothing (contract : Contract) (point : Point) : contract.Kept point Parts.nothing := by
  constructor <;> exact nofun

/-- The parts kept here and at every place ahead keep the contract. -/
def HeldAt (contract : Contract) (cursor : Cursor) : Prop :=
  ∀ later, cursor.Reaches later → ∀ parts ∈ later.parts.head?, contract.Kept later.point parts

theorem heldAt_end (contract : Contract) (span : Span) (offset : Nat) (misread : Bool)
    {parts : List Parts} (kept : ∀ found ∈ parts.head?, contract.Kept ⟨[], span⟩ found) :
    contract.HeldAt ⟨[], span, offset, misread, parts⟩ := by
  rintro later ⟨passed, passes⟩ found member
  obtain ⟨rfl, ended⟩ := List.append_eq_nil_iff.mp passes.rest.symm
  rw [passes.parts] at member
  rw [passes.point]
  exact kept found member

theorem heldAt_cons {contract : Contract} {character : Char} {rest : List Char} {span : Span}
    {offset : Nat} {misread : Bool} {parts : Parts} {others : List Parts}
    (first : contract.Kept ⟨character :: rest, span⟩ parts)
    (ahead : contract.HeldAt ⟨rest, span.next character, offset + 1, misread, others⟩) :
    contract.HeldAt ⟨character :: rest, span, offset, misread, parts :: others⟩ := by
  rintro later ⟨passed, passes⟩ found member
  cases passed with
  | nil =>
      rw [passes.parts] at member
      cases member
      rw [passes.point]
      exact first
  | cons head passed =>
      obtain ⟨rfl, restEq⟩ := List.cons.inj passes.rest
      have offset : later.offset = offset + 1 + passed.length := by
        have whole := passes.offset
        simp only [List.length_cons] at whole
        omega
      exact ahead later ⟨passed, restEq, passes.span, offset, passes.parts, passes.misread⟩ found
        member

/-- A grammar that keeps the contract at every cursor of a text where its parts do. -/
structure MetBy (contract : Contract) (nested : Nested) (text : List Char) : Prop where
  hint : ∀ {cursor : Cursor}, cursor.Within nested text → contract.HeldAt cursor →
    cursor.misread = false → Promises contract.hint cursor (Reader.hint nested)
  unary : ∀ {cursor : Cursor}, cursor.Within nested text → contract.HeldAt cursor →
    cursor.misread = false → Promises contract.unary cursor (Reader.unary nested)
  binary : ∀ {cursor : Cursor}, cursor.Within nested text → contract.HeldAt cursor →
    cursor.misread = false → Promises contract.binary cursor (Reader.binary nested)
  ternary : ∀ {cursor : Cursor}, cursor.Within nested text → contract.HeldAt cursor →
    cursor.misread = false → Promises contract.ternary cursor (Reader.ternary nested)
  expression : ∀ {cursor : Cursor}, cursor.Within nested text → contract.HeldAt cursor →
    cursor.misread = false → Promises contract.expression cursor (Reader.expression nested)
  statement : ∀ {cursor : Cursor}, cursor.Within nested text → contract.HeldAt cursor →
    cursor.misread = false → Promises contract.statement cursor (Reader.statement nested)

variable {contract : Contract} {nested : Nested} {text : List Char}

theorem MetBy.kept_startingAt {cursor : Cursor} (met : contract.MetBy nested text)
    (within : cursor.Within nested text) (held : contract.HeldAt cursor)
    (clean : cursor.misread = false) :
    contract.Kept cursor.point (Parts.startingAt nested cursor) where
  hint := (met.hint within held clean).keeps
  unary := (met.unary within held clean).keeps
  binary := (met.binary within held clean).keeps
  ternary := (met.ternary within held clean).keeps
  expression := (met.expression within held clean).keeps
  statement := (met.statement within held clean).keeps

/-- The contract is carried from the end of a text to its start. -/
theorem MetBy.heldAt_table (met : contract.MetBy nested text) (passed rest : List Char)
    (whole : text = passed ++ rest) :
    contract.HeldAt ⟨rest, ({} : Span).after passed, passed.length, false,
      Parts.table nested (({} : Span).after passed) passed.length rest⟩ := by
  induction rest generalizing passed with
  | nil =>
      have held : contract.HeldAt ⟨[], ({} : Span).after passed, passed.length, false, []⟩ :=
        heldAt_end contract _ _ false nofun
      have within : Cursor.Within nested text
          ⟨[], ({} : Span).after passed, passed.length, false, []⟩ := .behind whole rfl
      refine heldAt_end contract _ _ false fun parts member => ?_
      cases member
      exact met.kept_startingAt within held rfl
  | cons character rest ih =>
      have ahead := ih (passed ++ [character]) (by simp [whole])
      rw [Span.after_append, List.length_append] at ahead
      -- The parts of the place itself are read while it holds nothing yet.
      have held := heldAt_cons
        (contract.kept_nothing ⟨character :: rest, ({} : Span).after passed⟩) ahead
      have within : Cursor.Within nested text ⟨character :: rest, ({} : Span).after passed,
          passed.length, false, Parts.nothing ::
            Parts.table nested ((({} : Span).after passed).next character) (passed.length + 1)
              rest⟩ := .behind whole rfl
      exact heldAt_cons (met.kept_startingAt within held rfl) ahead

end Contract

/-- What is read from a kept part is what was promised of it. -/
theorem Reader.promised_of_part {Value : Type} {select : Parts → Thunk (Option (Taken Value))}
    {promise : Passage Value → Prop} {cursor later : Cursor} {value : Value}
    (kept : ∀ parts ∈ cursor.parts.head?, Keeps promise cursor.point (select parts))
    (read : (Reader.part select).run cursor = some (value, later)) :
    ∃ misread, promise ⟨cursor.point, value, later.point, misread⟩ := by
  simp only [Reader.part] at read
  split at read
  · cases read
  · rename_i parts others ahead
    split at read
    · rename_i taken found
      cases read
      have reading := kept parts (by simp [ahead]) taken found
      rw [← cursor.pass_point taken] at reading
      exact ⟨_, reading⟩
    · cases read

/-- Reading a kept part gives what was promised of it. -/
theorem Reader.Gives.part {Value : Type} {start : Cursor}
    {select : Parts → Thunk (Option (Taken Value))} {promise : Passage Value → Prop}
    {result : Value → Cursor → Prop}
    (kept : ∀ place, start.Reaches place → ∀ parts ∈ place.parts.head?,
      Keeps promise place.point (select parts))
    (promised : ∀ cursor value later misread, start.Reaches cursor → cursor.Reaches later →
      promise ⟨cursor.point, value, later.point, misread⟩ → result value later) :
    Reader.Gives start (Reader.part select) result := by
  intro cursor value later reached read
  obtain ⟨misread, reading⟩ := Reader.promised_of_part (kept cursor reached) read
  exact promised cursor value later misread reached ((Reader.part select).moves read) reading

/-- The readers of a text, in which no repetition is longer than the text. -/
def Nested.ofText (text : List Char) : Nested := Nested.held (text.length + 1)

/-- The cursor from which a text is read. -/
def Cursor.ofText (text : List Char) : Cursor :=
  Cursor.start text (Parts.table (Nested.ofText text) {} 0 text)

theorem Cursor.within_ofText (text : List Char) :
    (Cursor.ofText text).Within (Nested.ofText text) text :=
  .behind (List.nil_append text).symm rfl

theorem Cursor.ofText_reaches {text : List Char} {offset : Nat} (inside : offset ≤ text.length)
    (misread : Bool) :
    (Cursor.ofText text).Reaches (Cursor.onTable (Nested.ofText text) text offset misread) := by
  refine ⟨text.take offset, ?_, rfl, ?_, ?_, nofun⟩
  · exact (List.take_append_drop offset text).symm
  · simp [Cursor.onTable, Cursor.ofText, Cursor.start, inside]
  · simp [Cursor.onTable, Cursor.ofText, Cursor.start, inside]

/-- The tree of a text is what the program reads from its start to its end. -/
theorem exists_run_of_parse {text : String} {statements : List Stmt}
    (parsed : parse text = .ok statements) :
    ∃ later, (Reader.program (Nested.ofText text.toList)).run (Cursor.ofText text.toList) =
      some (statements, later) ∧ later.rest = [] := by
  simp only [parse] at parsed
  split at parsed
  · cases parsed
  rename_i found later read
  split at parsed
  · cases parsed
  rename_i ended
  split at parsed
  · cases parsed
  cases parsed
  exact ⟨later, read, by simpa using ended⟩

/-- What the whole grammar gives from the start of a text, with a table that keeps the contract,
holds of every tree. -/
theorem Contract.parsedFrom {contract : Contract} {text : String} {statements : List Stmt}
    (result : List Stmt → Prop) (met : contract.MetBy (Nested.ofText text.toList) text.toList)
    (program : contract.HeldAt (Cursor.ofText text.toList) →
      Reader.Gives (Cursor.ofText text.toList) (Reader.program (Nested.ofText text.toList))
        fun statements _ => result statements)
    (parsed : parse text = .ok statements) : result statements := by
  obtain ⟨later, read, _⟩ := exists_run_of_parse parsed
  have held : contract.HeldAt (Cursor.ofText text.toList) := met.heldAt_table [] _ rfl
  exact program held (Cursor.Reaches.refl _) read

theorem Contract.parsed {contract : Contract} {text : String} {statements : List Stmt}
    (result : List Stmt → Prop) (met : ∀ limit, contract.MetBy (Nested.held limit) text.toList)
    (program : ∀ limit parts, contract.HeldAt (Cursor.start text.toList parts) →
      Reader.Gives (Cursor.start text.toList parts) (Reader.program (Nested.held limit))
        fun statements _ => result statements)
    (parsed : parse text = .ok statements) : result statements :=
  Contract.parsedFrom result (met _) (program _ _) parsed

end PhpAudit
