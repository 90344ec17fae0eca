import PhpAudit.Reader.Lexeme
import PhpAudit.Text.Span
import PhpAudit.Tree.Basic

/-!
Readers. A reader starts at a cursor, which is the text still ahead together with its place,
and either fails or gives a value and the cursor after it, which it reaches by passing characters
of the text. Alternatives start again from the cursor they were given, so a failed attempt leaves
no trace. What the larger parts of the grammar give at a place is worked out once and kept for
all later attempts.
-/

namespace PhpAudit

/-- What a reader took at a place: a value, the number of characters, and whether one of the
words in them has no meaning where it stands. -/
structure Taken (Value : Type) where
  value : Value
  length : Nat
  misread : Bool

/-- The larger parts of the grammar that start at one place, each worked out when it is first
asked for. -/
structure Parts where
  hint : Thunk (Option (Taken Hint))
  unary : Thunk (Option (Taken Expr))
  binary : Thunk (Option (Taken Expr))
  ternary : Thunk (Option (Taken Expr))
  expression : Thunk (Option (Taken Expr))
  statement : Thunk (Option (Taken (List Stmt)))

/-- The parts at a place where nothing starts. -/
def Parts.nothing : Parts where
  hint := .pure none
  unary := .pure none
  binary := .pure none
  ternary := .pure none
  expression := .pure none
  statement := .pure none

structure Cursor where
  rest : List Char
  span : Span
  /-- The number of characters before the place. -/
  offset : Nat
  /-- Whether a word has been read in a place where the grammar takes it and the tree has no
  meaning for it. -/
  misread : Bool
  /-- The parts that start here and at each place after it. -/
  parts : List Parts

namespace Cursor

def start (text : List Char) (parts : List Parts) : Cursor := ⟨text, {}, 0, false, parts⟩

def next (cursor : Cursor) : Cursor :=
  match cursor.rest with
  | [] => cursor
  | character :: rest =>
      { cursor with
        rest
        span := cursor.span.next character
        offset := cursor.offset + 1
        parts := cursor.parts.tail }

def advance : Nat → Cursor → Cursor
  | 0, cursor => cursor
  | count + 1, cursor => advance count cursor.next

/-- The cursor after something taken from it. -/
def pass {Value : Type} (cursor : Cursor) (taken : Taken Value) : Cursor :=
  { cursor.advance taken.length with misread := cursor.misread || taken.misread }

/-- The cursor with the note that a word has been misread. -/
def noted (cursor : Cursor) : Cursor := { cursor with misread := true }

/-- The characters between a cursor and a later one. -/
def textUntil (cursor later : Cursor) : String :=
  String.ofList (cursor.rest.take (later.offset - cursor.offset))

/-- A cursor becomes a later one by passing characters of the text. A word that was misread
before the one was misread before the other too. -/
structure Passes (cursor : Cursor) (passed : List Char) (later : Cursor) : Prop where
  rest : cursor.rest = passed ++ later.rest
  span : later.span = cursor.span.after passed
  offset : later.offset = cursor.offset + passed.length
  parts : later.parts = cursor.parts.drop passed.length
  misread : cursor.misread = true → later.misread = true

theorem Passes.refl (cursor : Cursor) : cursor.Passes [] cursor :=
  ⟨rfl, rfl, rfl, rfl, id⟩

theorem Passes.trans {cursor middle later : Cursor} {first second : List Char}
    (before : cursor.Passes first middle) (behind : middle.Passes second later) :
    cursor.Passes (first ++ second) later where
  rest := by rw [before.rest, behind.rest, List.append_assoc]
  span := by rw [behind.span, before.span, Span.after_append]
  offset := by rw [behind.offset, before.offset, List.length_append, Nat.add_assoc]
  parts := by rw [behind.parts, before.parts, List.drop_drop, List.length_append]
  misread := fun misread => behind.misread (before.misread misread)

theorem passes_advance (count : Nat) (cursor : Cursor) :
    cursor.Passes (cursor.rest.take count) (cursor.advance count) := by
  induction count generalizing cursor with
  | zero => exact Passes.refl cursor
  | succ count ih =>
      have later := ih cursor.next
      cases ahead : cursor.rest with
      | nil =>
          simp only [next, ahead, List.take_nil] at later
          simpa only [advance, next, ahead, List.take_nil] using later
      | cons character rest =>
          have first : cursor.Passes [character] cursor.next := by
            constructor <;> simp [next, ahead, Span.after]
          have reached := first.trans later
          simpa only [advance, next, ahead, List.take_succ_cons, List.singleton_append]
            using reached

/-- A cursor reaches another one by passing some characters, perhaps none. -/
def Reaches (cursor later : Cursor) : Prop := ∃ passed, cursor.Passes passed later

theorem Reaches.refl (cursor : Cursor) : cursor.Reaches cursor := ⟨[], Passes.refl cursor⟩

theorem Reaches.trans {cursor middle later : Cursor} (before : cursor.Reaches middle)
    (behind : middle.Reaches later) : cursor.Reaches later := by
  obtain ⟨first, before⟩ := before
  obtain ⟨second, behind⟩ := behind
  exact ⟨first ++ second, before.trans behind⟩

theorem reaches_advance (count : Nat) (cursor : Cursor) : cursor.Reaches (cursor.advance count) :=
  ⟨_, passes_advance count cursor⟩

theorem reaches_misread {cursor : Cursor} {misread : Bool}
    (kept : cursor.misread = true → misread = true) :
    cursor.Reaches { cursor with misread } :=
  ⟨[], rfl, rfl, rfl, rfl, kept⟩

theorem reaches_pass {Value : Type} (cursor : Cursor) (taken : Taken Value) :
    cursor.Reaches (cursor.pass taken) := by
  obtain ⟨passed, reached⟩ := reaches_advance taken.length cursor
  exact ⟨passed, reached.rest, reached.span, reached.offset, reached.parts,
    fun misread => by simp [pass, misread]⟩

@[simp] theorem rest_noted (cursor : Cursor) : cursor.noted.rest = cursor.rest := rfl

@[simp] theorem parts_noted (cursor : Cursor) : cursor.noted.parts = cursor.parts := rfl

@[simp] theorem advance_noted (count : Nat) (cursor : Cursor) :
    cursor.noted.advance count = (cursor.advance count).noted := by
  induction count generalizing cursor with
  | zero => rfl
  | succ count ih =>
      have next : cursor.noted.next = cursor.next.noted := by
        cases ahead : cursor.rest <;> simp [Cursor.next, noted, ahead]
      rw [advance, advance, next, ih]

@[simp] theorem pass_noted {Value : Type} (cursor : Cursor) (taken : Taken Value) :
    cursor.noted.pass taken = (cursor.pass taken).noted := by
  rw [pass, advance_noted]
  rfl

end Cursor

/-- A reader gives a value and the cursor after it, or fails. It only moves on, and what it gives
does not depend on whether a word has been misread before. -/
structure Reader (Value : Type) where
  run : Cursor → Option (Value × Cursor)
  moves : ∀ {cursor value later}, run cursor = some (value, later) → cursor.Reaches later
  blind : ∀ cursor, run cursor.noted = (run cursor).map fun found => (found.1, found.2.noted)

namespace Reader

@[always_inline, inline] def give {Value : Type} (value : Value) : Reader Value where
  run cursor := some (value, cursor)
  moves read := by
    cases read
    exact Cursor.Reaches.refl _
  blind _ := rfl

/-- A reader, then the one that its value calls for. -/
@[always_inline, inline] def sequence {First Second : Type} (reader : Reader First)
    (next : First → Reader Second) : Reader Second where
  run cursor :=
    match reader.run cursor with
    | some (value, later) => (next value).run later
    | none => none
  moves {cursor value later} read := by
    cases first : reader.run cursor with
    | none => simp [first] at read
    | some pair =>
        simp only [first] at read
        exact (reader.moves first).trans ((next pair.1).moves read)
  blind cursor := by
    cases first : reader.run cursor with
    | none => simp [reader.blind, first]
    | some pair => simp [reader.blind, first, (next pair.1).blind]

/-- A reader, or another one from the same place where the first one fails. -/
@[always_inline, inline] def choose {Value : Type} (first : Reader Value)
    (second : Unit → Reader Value) : Reader Value where
  run cursor :=
    match first.run cursor with
    | some result => some result
    | none => (second ()).run cursor
  moves {cursor value later} read := by
    cases tried : first.run cursor with
    | none =>
        simp only [tried] at read
        exact (second ()).moves read
    | some result =>
        simp only [tried, Option.some.injEq] at read
        subst read
        exact first.moves tried
  blind cursor := by
    cases tried : first.run cursor with
    | none => simp [first.blind, tried, (second ()).blind]
    | some result => simp [first.blind, tried]

instance : Monad Reader where
  pure := give
  bind := sequence

instance : Alternative Reader where
  failure := ⟨fun _ => none, nofun, fun _ => rfl⟩
  orElse := choose

/-- The cursor itself, without its note. -/
def cursor : Reader Cursor where
  run cursor := some ({ cursor with misread := false }, cursor)
  moves read := by
    cases read
    exact Cursor.Reaches.refl _
  blind _ := rfl

def here : Reader Span := return (← cursor).span

/-- The text of a lexeme. -/
def lexeme (rule : Lexeme) : Reader String where
  run cursor :=
    match rule cursor.rest with
    | some length => some (String.ofList (cursor.rest.take length), cursor.advance length)
    | none => none
  moves {cursor value later} read := by
    split at read
    · cases read
      exact Cursor.reaches_advance _ cursor
    · cases read
  blind cursor := by
    cases found : rule cursor.rest <;> simp [found]

/-- A lexeme of which only the presence matters. -/
def token (rule : Lexeme) : Reader Unit where
  run cursor :=
    match rule cursor.rest with
    | some length => some ((), cursor.advance length)
    | none => none
  moves {cursor value later} read := by
    split at read
    · cases read
      exact Cursor.reaches_advance _ cursor
    · cases read
  blind cursor := by
    cases found : rule cursor.rest <;> simp [found]

def mark (text : String) : Reader Unit := token (Lexeme.mark text.toList)

def keyword (word : String) : Reader Unit := token (Lexeme.keyword word)

/-- White space and comments, perhaps none. -/
def skip : Reader Unit where
  run cursor := some ((), cursor.advance (Lexeme.trivia cursor.rest))
  moves {cursor value later} read := by
    cases read
    exact Cursor.reaches_advance _ cursor
  blind cursor := by simp

/-- What a reader takes at a cursor. -/
def taken {Value : Type} (reader : Reader Value) (cursor : Cursor) : Option (Taken Value) :=
  match reader.run cursor with
  | some (value, later) => some ⟨value, later.offset - cursor.offset, later.misread⟩
  | none => none

/-- Reads one of the parts that start at the cursor. -/
def part {Value : Type} (select : Parts → Thunk (Option (Taken Value))) : Reader Value where
  run cursor :=
    match cursor.parts with
    | [] => none
    | parts :: _ =>
        match (select parts).get with
        | some taken => some (taken.value, cursor.pass taken)
        | none => none
  moves {cursor value later} read := by
    split at read
    · cases read
    · split at read
      · cases read
        exact Cursor.reaches_pass cursor _
      · cases read
  blind cursor := by
    cases ahead : cursor.parts with
    | nil => simp [ahead]
    | cons parts others => cases kept : (select parts).get <;> simp [ahead, kept]

/-- Looks ahead without moving. -/
def ahead {Value : Type} (reader : Reader Value) : Reader Unit where
  run cursor :=
    match reader.run cursor with
    | some _ => some ((), cursor)
    | none => none
  moves {cursor value later} read := by
    split at read
    · cases read
      exact Cursor.Reaches.refl cursor
    · cases read
  blind cursor := by
    cases found : reader.run cursor <;> simp [reader.blind, found]

/-- Succeeds without moving where the reader fails. -/
def absent {Value : Type} (reader : Reader Value) : Reader Unit where
  run cursor :=
    match reader.run cursor with
    | some _ => none
    | none => some ((), cursor)
  moves {cursor value later} read := by
    split at read
    · cases read
    · cases read
      exact Cursor.Reaches.refl cursor
  blind cursor := by
    cases found : reader.run cursor <;> simp [reader.blind, found]

def perhaps {Value : Type} (reader : Reader Value) : Reader (Option Value) :=
  some <$> reader <|> pure none

/-- Whether the reader succeeds; it has moved if it does. -/
def given {Value : Type} (reader : Reader Value) : Reader Bool :=
  (do discard reader; return true) <|> return false

/-- As many repetitions as there are, up to a limit. -/
def many {Value : Type} : Nat → Reader Value → Reader (List Value)
  | 0, _ => pure []
  | limit + 1, reader =>
      (do
        let first ← reader
        let rest ← many limit reader
        return first :: rest) <|> pure []

/-- One or more items with commas between them. -/
def commaList {Value : Type} (limit : Nat) (item : Reader Value) : Reader (List Value) := do
  let first ← item
  let rest ← many limit do
    skip
    mark ","
    skip
    item
  return first :: rest

/-- Items with commas between them and perhaps one after them; perhaps no item at all. -/
def trailingCommaList {Value : Type} (limit : Nat) (item : Reader Value) :
    Reader (List Value) := do
  let items ← perhaps do
    let items ← commaList limit item
    skip
    discard (perhaps (mark ","))
    return items
  return items.getD []

/-- Notes that the tree has no meaning for a word just read. -/
def noteMisread : Reader Unit where
  run cursor := some ((), { cursor with misread := true })
  moves {cursor value later} read := by
    cases read
    exact Cursor.reaches_misread fun _ => rfl
  blind _ := rfl

end Reader

end PhpAudit
