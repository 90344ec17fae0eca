import PhpAudit.Proofs.Reading

/-!
Reading two texts side by side. Two readers are twins for a relation between cursors if from related
cursors either both fail, or both succeed with values that look alike and at related cursors. Twins
are built from twins by every means that readers are built by.
-/

namespace PhpAudit

namespace Reader

/-- From related cursors both readers fail, or both give values that look alike and leave related
cursors. Twins that go onward both take some text. -/
def Twins {Value View : Type} (onward : Prop) (related : Cursor → Cursor → Prop)
    (view : Value → View) (reader other : Reader Value) : Prop :=
  ∀ ⦃cursor place⦄, related cursor place →
    Option.Rel (fun found second => view found.1 = view second.1 ∧ related found.2 second.2 ∧
      (onward → found.2.rest.length < cursor.rest.length ∧
        second.2.rest.length < place.rest.length)) (reader.run cursor) (other.run place)

theorem length_le_of_run {Value : Type} {reader : Reader Value} {cursor later : Cursor}
    {value : Value} (read : reader.run cursor = some (value, later)) :
    later.rest.length ≤ cursor.rest.length := by
  obtain ⟨passed, reached⟩ := reader.moves read
  rw [reached.rest, List.length_append]
  omega

theorem run_bind_congr {First Value : Type} {reader other : Reader First}
    {next : First → Reader Value} {cursor : Cursor} (same : reader.run cursor = other.run cursor) :
    (reader >>= next).run cursor = (other >>= next).run cursor := by
  change (sequence reader next).run cursor = (sequence other next).run cursor
  simp only [sequence, same]

theorem run_perhaps_some {Value : Type} {reader : Reader Value} {cursor later : Cursor}
    {value : Value} (read : reader.run cursor = some (value, later)) :
    (perhaps reader).run cursor = some (some value, later) :=
  run_orElse_of_some (run_bind_of_some read)

theorem run_orElse_congr {Value : Type} {first second next later : Reader Value} {cursor : Cursor}
    (same : first.run cursor = second.run cursor) (alike : next.run cursor = later.run cursor) :
    (first <|> next).run cursor = (second <|> later).run cursor := by
  change (choose first fun _ => next).run cursor = (choose second fun _ => later).run cursor
  simp only [choose, same, alike]

/-- What two readers give is related if what they give first is related, and what they give behind that
is related whenever this is so. -/
theorem rel_bind {First Value : Type} {reader other : Reader First}
    {next later : First → Reader Value} {cursor place : Cursor}
    {between : First × Cursor → First × Cursor → Prop}
    {result : Value × Cursor → Value × Cursor → Prop}
    (first : Option.Rel between (reader.run cursor) (other.run place))
    (rest : ∀ value middle second behind, reader.run cursor = some (value, middle) →
      other.run place = some (second, behind) → between (value, middle) (second, behind) →
      Option.Rel result ((next value).run middle) ((later second).run behind)) :
    Option.Rel result ((reader >>= next).run cursor) ((other >>= later).run place) := by
  cases read : reader.run cursor with
  | none =>
      cases readToo : other.run place with
      | none =>
          rw [show (reader >>= next).run cursor = none from Fails.bind read,
            show (other >>= later).run place = none from Fails.bind readToo]
          exact .none
      | some found =>
          rw [read, readToo] at first
          cases first
  | some found =>
      cases readToo : other.run place with
      | none =>
          rw [read, readToo] at first
          cases first
      | some second =>
          rw [read, readToo, Option.rel_some_some] at first
          rw [run_bind_of_some read, run_bind_of_some readToo]
          exact rest _ _ _ _ read readToo first

/-- The reader takes some text wherever it succeeds. -/
def Shortens {Value : Type} (reader : Reader Value) : Prop :=
  ∀ ⦃cursor value later⦄, reader.run cursor = some (value, later) →
    later.rest.length < cursor.rest.length

namespace Shortens

variable {First Value : Type}

theorem first {reader : Reader First} {next : First → Reader Value} (shortens : reader.Shortens) :
    (reader >>= next).Shortens := by
  intro cursor value later read
  obtain ⟨_, middle, step, read⟩ := run_bind read
  have shorter := shortens step
  have bound := length_le_of_run read
  omega

theorem last {reader : Reader First} {next : First → Reader Value}
    (shortens : ∀ value, (next value).Shortens) : (reader >>= next).Shortens := by
  intro cursor value later read
  obtain ⟨found, middle, step, read⟩ := run_bind read
  have bound := length_le_of_run step
  have shorter := shortens found read
  omega

theorem token {rule : Lexeme}
    (moves : ∀ text length, rule text = some length → 0 < length ∧ length ≤ text.length) :
    (token rule).Shortens := by
  intro cursor value later read
  simp only [Reader.token] at read
  split at read
  · rename_i length taken
    cases read
    obtain ⟨moved, inside⟩ := moves _ length taken
    have passes := congrArg List.length (Cursor.passes_advance length cursor).rest
    rw [List.length_append, List.length_take, Nat.min_eq_left inside] at passes
    omega
  · cases read

end Shortens

theorem rel_token {rule : Lexeme} {cursor place : Cursor}
    {between : String × Cursor → String × Cursor → Prop}
    {result : Unit × Cursor → Unit × Cursor → Prop}
    (both : Option.Rel between ((lexeme rule).run cursor) ((lexeme rule).run place))
    (weaker : ∀ {found second}, between found second → result ((), found.2) ((), second.2)) :
    Option.Rel result ((token rule).run cursor) ((token rule).run place) := by
  have taken : ∀ cursor, (token rule).run cursor =
      ((lexeme rule).run cursor).map fun found => ((), found.2) := by
    intro cursor
    simp only [token, lexeme]
    cases rule cursor.rest <;> rfl
  rw [taken, taken]
  generalize (lexeme rule).run cursor = first at both ⊢
  generalize (lexeme rule).run place = second at both ⊢
  cases both with
  | none => exact .none
  | some facts => exact .some (weaker facts)

namespace Twins

variable {First Value View Sight : Type} {onward : Prop} {related : Cursor → Cursor → Prop}
  {look : First → Sight} {view : Value → View}

theorem cases {reader other : Reader Value} (twins : Twins onward related view reader other)
    {cursor place : Cursor} (relation : related cursor place) :
    (reader.Fails cursor ∧ other.Fails place) ∨
      ∃ value later second behind, reader.run cursor = some (value, later) ∧
        other.run place = some (second, behind) ∧ view value = view second ∧
        related later behind ∧ (onward → later.rest.length < cursor.rest.length ∧
          behind.rest.length < place.rest.length) := by
  have both := twins relation
  cases read : reader.run cursor with
  | none =>
      cases readToo : other.run place with
      | none => exact .inl ⟨read, readToo⟩
      | some second =>
          rw [read, readToo] at both
          cases both
  | some found =>
      cases readToo : other.run place with
      | none =>
          rw [read, readToo] at both
          cases both
      | some second =>
          rw [read, readToo, Option.rel_some_some] at both
          exact .inr ⟨found.1, found.2, second.1, second.2, rfl, rfl, both⟩

theorem of_fails {reader other : Reader Value} {cursor place : Cursor} (first : reader.Fails cursor)
    (second : other.Fails place) {result : Value × Cursor → Value × Cursor → Prop} :
    Option.Rel result (reader.run cursor) (other.run place) := by
  rw [show reader.run cursor = none from first, show other.run place = none from second]
  exact .none

theorem weaken {reader other : Reader Value} {forward : Prop}
    (twins : Twins forward related view reader other) (weaker : onward → forward) :
    Twins onward related view reader other := by
  intro cursor place relation
  rcases twins.cases relation with ⟨first, second⟩ | ⟨_, _, _, _, read, readToo, same, kept, moves⟩
  · exact of_fails first second
  · rw [read, readToo]
    exact .some ⟨same, kept, fun goes => moves (weaker goes)⟩

theorem give {value second : Value} (same : view value = view second) :
    Twins False related view (pure value) (pure second) :=
  fun _ _ relation => .some ⟨same, relation, False.elim⟩

theorem fail : Twins onward related view (failure : Reader Value) failure :=
  fun _ _ _ => .none

/-- Both steps of a sequence. What the first one takes is enough to go onward, and so is what the
second one takes. -/
theorem sequence {forward behind : Prop} {reader other : Reader First}
    {next later : First → Reader Value} (first : Twins forward related look reader other)
    (rest : ∀ value second, look value = look second →
      Twins behind related view (next value) (later second))
    (either : onward → forward ∨ behind) :
    Twins onward related view (reader >>= next) (other >>= later) := by
  intro cursor place relation
  refine rel_bind (first relation) fun value middle second between read readToo facts => ?_
  obtain ⟨same, kept, moves⟩ := facts
  dsimp only at same kept moves
  rcases (rest value second same).cases kept with ⟨fails, failsToo⟩ |
    ⟨_, _, _, _, step, stepToo, alike, keptToo, movesToo⟩
  · exact of_fails fails failsToo
  rw [step, stepToo]
  refine .some ⟨alike, keptToo, fun goes => ?_⟩
  dsimp only
  have bound := length_le_of_run read
  have boundToo := length_le_of_run readToo
  have shrink := length_le_of_run step
  have shrinkToo := length_le_of_run stepToo
  rcases either goes with before | behind
  · have := moves before
    exact ⟨by omega, by omega⟩
  · have := movesToo behind
    exact ⟨by omega, by omega⟩

theorem bind {reader other : Reader First} {next later : First → Reader Value}
    (first : Twins onward related look reader other)
    (rest : ∀ value second, look value = look second →
      Twins False related view (next value) (later second)) :
    Twins onward related view (reader >>= next) (other >>= later) :=
  first.sequence rest Or.inl

/-- What the first readers give does not matter. -/
theorem pass {reader other : Reader First} {next later : Reader Value}
    (first : Twins onward related look reader other)
    (rest : Twins False related view next later) :
    Twins onward related view (reader >>= fun _ => next) (other >>= fun _ => later) :=
  first.bind fun _ _ _ => rest

/-- The first readers may stay where they are. -/
theorem later {reader other : Reader First} {next later : First → Reader Value}
    (first : Twins False related look reader other)
    (rest : ∀ value second, look value = look second →
      Twins onward related view (next value) (later second)) :
    Twins onward related view (reader >>= next) (other >>= later) :=
  first.sequence rest Or.inr

theorem beyond {reader other : Reader First} {next later : Reader Value}
    (first : Twins False related look reader other)
    (rest : Twins onward related view next later) :
    Twins onward related view (reader >>= fun _ => next) (other >>= fun _ => later) :=
  first.later fun _ _ _ => rest

theorem here {next later : Span → Reader Value}
    (rest : ∀ span place, Twins onward related view (next span) (later place)) :
    Twins onward related view (Reader.here >>= next) (Reader.here >>= later) :=
  fun _ _ relation => rest _ _ relation

theorem map {reader other : Reader First} {function second : First → Value}
    (twins : Twins onward related look reader other)
    (same : ∀ value found, look value = look found → view (function value) = view (second found)) :
    Twins onward related view (function <$> reader) (second <$> other) :=
  twins.bind fun value found alike => give (same value found alike)

theorem discard {reader other : Reader First} (twins : Twins onward related look reader other) :
    Twins onward related (fun _ => ()) (discard reader) (discard other) :=
  twins.map fun _ _ _ => rfl

theorem orElse {reader other next later : Reader Value}
    (first : Twins onward related view reader other)
    (second : Twins onward related view next later) :
    Twins onward related view (reader <|> next) (other <|> later) := by
  intro cursor place relation
  rcases first.cases relation with ⟨fails, failsToo⟩ | ⟨_, _, _, _, read, readToo, result⟩
  · rw [fails.run_orElse, failsToo.run_orElse]
    exact second relation
  · rw [run_orElse_of_some read, run_orElse_of_some readToo]
    exact .some result

theorem perhaps {reader other : Reader Value} (twins : Twins False related view reader other) :
    Twins False related (Option.map view) (Reader.perhaps reader) (Reader.perhaps other) := by
  have found : Twins False related (Option.map view) (some <$> reader) (some <$> other) :=
    twins.map fun _ _ same => congrArg some same
  exact found.orElse (give rfl)

/-- An optional part is always read, as something or as nothing. -/
theorem perhaps_runs {reader other : Reader Value} (twins : Twins False related view reader other)
    {cursor place : Cursor} (relation : related cursor place) :
    ∃ found later second behind, (Reader.perhaps reader).run cursor = some (found, later) ∧
      (Reader.perhaps other).run place = some (second, behind) ∧
      found.map view = second.map view ∧ related later behind := by
  rcases twins.cases relation with ⟨fails, failsToo⟩ |
    ⟨value, later, second, behind, read, readToo, same, kept, -⟩
  · exact ⟨none, cursor, none, place, fails.perhaps, failsToo.perhaps, rfl, relation⟩
  · exact ⟨some value, later, some second, behind, run_perhaps_some read, run_perhaps_some readToo,
      congrArg some same, kept⟩

theorem given {reader other : Reader Value} (twins : Twins False related view reader other) :
    Twins False related id (Reader.given reader) (Reader.given other) :=
  (twins.discard.pass (give rfl)).orElse (give rfl)

theorem ahead {reader other : Reader Value} (twins : Twins False related view reader other) :
    Twins False related (fun _ => ()) (Reader.ahead reader) (Reader.ahead other) := by
  intro cursor place relation
  rcases twins.cases relation with ⟨fails, failsToo⟩ | ⟨_, _, _, _, read, readToo, -⟩
  · simp only [Reader.ahead, show reader.run cursor = none from fails,
      show other.run place = none from failsToo]
    exact .none
  · simp only [Reader.ahead, read, readToo]
    exact .some ⟨trivial, relation, False.elim⟩

theorem absent {reader other : Reader Value} (twins : Twins False related view reader other) :
    Twins False related (fun _ => ()) (Reader.absent reader) (Reader.absent other) := by
  intro cursor place relation
  rcases twins.cases relation with ⟨fails, failsToo⟩ | ⟨_, _, _, _, read, readToo, -⟩
  · simp only [Reader.absent, show reader.run cursor = none from fails,
      show other.run place = none from failsToo]
    exact .some ⟨trivial, relation, False.elim⟩
  · simp only [Reader.absent, read, readToo]
    exact .none

/-- Repetitions of twins that go onward, up to limits that the texts ahead do not reach. -/
theorem many {reader other : Reader Value} (twins : Twins True related view reader other)
    {limit bound : Nat}
    (short : ∀ cursor place, related cursor place →
      cursor.rest.length < limit ∧ place.rest.length < bound) :
    Twins False related (List.map view) (Reader.many limit reader) (Reader.many bound other) := by
  have along : ∀ limit bound cursor place, related cursor place →
      cursor.rest.length < limit → place.rest.length < bound →
      ∃ values later others behind, (Reader.many limit reader).run cursor = some (values, later) ∧
        (Reader.many bound other).run place = some (others, behind) ∧
        values.map view = others.map view ∧ related later behind := by
    intro limit
    induction limit with
    | zero => intro bound cursor place _ below; omega
    | succ limit ih =>
        intro bound cursor place relation below belowToo
        cases bound with
        | zero => omega
        | succ bound =>
            rcases twins.cases relation with ⟨fails, failsToo⟩ |
              ⟨value, middle, second, between, read, readToo, same, kept, moves⟩
            · exact ⟨[], cursor, [], place, fails.many _, failsToo.many _, rfl, relation⟩
            · obtain ⟨shorter, shorterToo⟩ := moves trivial
              obtain ⟨values, later, others, behind, rest, restToo, alike, keptToo⟩ :=
                ih bound middle between kept (by omega) (by omega)
              refine ⟨value :: values, later, second :: others, behind, ?_, ?_, ?_, keptToo⟩
              · exact run_many_some read rest
              · exact run_many_some readToo restToo
              · rw [List.map_cons, List.map_cons, same, alike]
  intro cursor place relation
  obtain ⟨below, belowToo⟩ := short cursor place relation
  obtain ⟨_, _, _, _, read, readToo, alike, kept⟩ :=
    along limit bound cursor place relation below belowToo
  rw [read, readToo]
  exact .some ⟨alike, kept, False.elim⟩

theorem commaList {reader other : Reader Value} (twins : Twins True related view reader other)
    (skips : Twins False related (fun _ => ()) Reader.skip Reader.skip)
    (comma : Twins False related (fun _ => ()) (Reader.mark ",") (Reader.mark ","))
    {limit bound : Nat}
    (short : ∀ cursor place, related cursor place →
      cursor.rest.length < limit ∧ place.rest.length < bound) :
    Twins onward related (List.map view) (Reader.commaList limit reader)
      (Reader.commaList bound other) := by
  have next := skips.beyond (comma.beyond (skips.beyond twins))
  refine (twins.weaken fun _ => trivial).bind fun first found same => ?_
  refine (next.many short).bind fun rest others alike => .give ?_
  rw [List.map_cons, List.map_cons, same, alike]

theorem neededName
    (noted : Twins False related (fun _ => ()) Reader.noteMisread Reader.noteMisread)
    (names : Twins onward related id (Reader.lexeme Lexeme.name) (Reader.lexeme Lexeme.name)) :
    Twins onward related Identifier.value Reader.neededName Reader.neededName := by
  refine .here fun span place => names.bind fun value found same => ?_
  obtain rfl : value = found := same
  dsimp only
  split
  · exact noted.pass (.give rfl)
  · exact .give rfl

theorem instanceOfWord
    (noted : Twins False related (fun _ => ()) Reader.noteMisread Reader.noteMisread)
    (words : Twins onward related id (Reader.lexeme (Lexeme.keyword "instanceof"))
      (Reader.lexeme (Lexeme.keyword "instanceof"))) :
    Twins onward related id Reader.instanceOfWord Reader.instanceOfWord := by
  refine words.bind fun word found same => ?_
  obtain rfl : word = found := same
  dsimp only
  split
  · exact noted.pass (.give rfl)
  · exact .give rfl

theorem listedName
    (names : Twins onward related id (Reader.lexeme Lexeme.name) (Reader.lexeme Lexeme.name)) :
    Twins onward related id Reader.listedName Reader.listedName :=
  names.bind fun _ _ same =>
    .give (congrArg (fun value => if Reader.isLiteralWord value then none else some value) same)

theorem nameList
    (names : Twins True related id (Reader.lexeme Lexeme.name) (Reader.lexeme Lexeme.name))
    (skips : Twins False related (fun _ => ()) Reader.skip Reader.skip)
    (comma : Twins False related (fun _ => ()) (Reader.mark ",") (Reader.mark ","))
    {limit bound : Nat}
    (short : ∀ cursor place, related cursor place →
      cursor.rest.length < limit ∧ place.rest.length < bound) :
    Twins onward related id (Reader.nameList limit) (Reader.nameList bound) := by
  refine (names.listedName.commaList skips comma short).bind fun names found same => .give ?_
  rw [List.map_id, List.map_id] at same
  rw [same]

/-- Readers that take some text on their own go onward. -/
theorem forward {reader other : Reader Value} (twins : Twins False related view reader other)
    (first : reader.Shortens) (second : other.Shortens) :
    Twins True related view reader other := by
  intro cursor place relation
  rcases twins.cases relation with ⟨fails, failsToo⟩ |
    ⟨_, _, _, _, read, readToo, same, kept, -⟩
  · exact of_fails fails failsToo
  · rw [read, readToo]
    exact .some ⟨same, kept, fun _ => ⟨first read, second readToo⟩⟩

/-- What holds of everything that the readers give helps to see that it looks alike. -/
theorem knowing {reader other : Reader Value} {good : Value → Prop} {see : Value → Sight}
    (twins : Twins onward related view reader other)
    (first : ∀ {cursor value later}, reader.run cursor = some (value, later) → good value)
    (second : ∀ {cursor value later}, other.run cursor = some (value, later) → good value)
    (same : ∀ value found, view value = view found → good value → good found →
      see value = see found) : Twins onward related see reader other := by
  intro cursor place relation
  rcases twins.cases relation with ⟨fails, failsToo⟩ |
    ⟨value, _, found, _, read, readToo, alike, kept⟩
  · exact of_fails fails failsToo
  · rw [read, readToo]
    exact .some ⟨same value found alike (first read) (second readToo), kept⟩

theorem sees {reader other : Reader Value} {see : Value → Sight}
    (twins : Twins onward related view reader other)
    (same : ∀ value found, view value = view found → see value = see found) :
    Twins onward related see reader other :=
  twins.knowing (fun _ => trivial) (fun _ => trivial) fun value found alike _ _ =>
    same value found alike

theorem cursor {next later : Cursor → Reader Value}
    (rest : ∀ start place, Twins onward related view (next start) (later place)) :
    Twins onward related view (Reader.cursor >>= next) (Reader.cursor >>= later) :=
  fun _ _ relation => rest _ _ relation

theorem token {rule : Lexeme}
    (twins : Twins onward related id (Reader.lexeme rule) (Reader.lexeme rule)) :
    Twins onward related (fun _ => ()) (Reader.token rule) (Reader.token rule) :=
  fun _ _ relation => rel_token (twins relation) fun facts => ⟨rfl, facts.2⟩

/-- A choice between the entries of a list, and what is left if none of them is there. -/
theorem choice {Entry : Type} {entries : List Entry} {choose : Entry → Reader Value → Reader Value}
    (each : ∀ entry ∈ entries, ∀ {reader : Reader Value},
      Twins onward related view reader reader →
        Twins onward related view (choose entry reader) (choose entry reader))
    {last : Reader Value} (otherwise : Twins onward related view last last) :
    Twins onward related view (entries.foldr choose last) (entries.foldr choose last) := by
  induction entries with
  | nil => exact otherwise
  | cons entry rest ih =>
      obtain ⟨first, others⟩ := List.forall_mem_cons.mp each
      exact first (ih others)

theorem lone {reader other : Reader Stmt} {look : Stmt → View}
    (twins : Twins onward related look reader other) :
    Twins onward related (List.map look) (Reader.lone reader) (Reader.lone other) :=
  twins.bind fun _ _ same => give (congrArg (fun shown => [shown]) same)

/-- The first reader of a list that succeeds on one side is also the first one on the other. -/
theorem firstOf {nested other : Nested} {readers : List (Nested → Reader Stmt)} {look : Stmt → View}
    (each : ∀ reader ∈ readers, Twins onward related look (reader nested) (reader other)) :
    Twins onward related (List.map look)
      (readers.foldr (fun reader others => Reader.lone (reader nested) <|> others) failure)
      (readers.foldr (fun reader others => Reader.lone (reader other) <|> others) failure) := by
  induction readers with
  | nil => exact fail
  | cons reader rest ih =>
      obtain ⟨first, others⟩ := List.forall_mem_cons.mp each
      exact first.lone.orElse (ih others)

end Twins

end Reader

end PhpAudit
