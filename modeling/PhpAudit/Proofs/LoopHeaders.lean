import PhpAudit.Proofs.Reading

/-!
The headers of loops over items. A header is written as the word `foreach` and, in parentheses, the
items, the word `as`, perhaps a key with an arrow, perhaps a mark for a reference, and the target.
Reading such a loop gives exactly the expressions that stand at these places.
-/

namespace PhpAudit

namespace Lexeme

/-- White space and comments, perhaps none. -/
def blank : Lexeme := fun text => some (trivia text)

/-- The lexeme takes no more than there is. -/
def Bounded (rule : Lexeme) : Prop :=
  ∀ {text length}, rule text = some length → length ≤ text.length

/-- A rule that compares character by character takes as many as it expects. -/
theorem length_of_pairwise {rule : List Char → Lexeme} {fits : Char → Char → Bool}
    (empty : ∀ text, rule [] text = some 0) (ended : ∀ first more, rule (first :: more) [] = none)
    (step : ∀ first more character rest, rule (first :: more) (character :: rest) =
      if fits first character then (rule more rest).map (· + 1) else none)
    {expected text : List Char} {length : Nat} (taken : rule expected text = some length) :
    length = expected.length ∧ length ≤ text.length := by
  induction expected generalizing text length with
  | nil =>
      rw [empty] at taken
      cases taken
      exact ⟨rfl, Nat.zero_le _⟩
  | cons first more ih =>
      cases text with
      | nil =>
          rw [ended] at taken
          cases taken
      | cons character rest =>
          rw [step] at taken
          split at taken
          · obtain ⟨shorter, others, rfl⟩ := Option.map_eq_some_iff.mp taken
            obtain ⟨same, bound⟩ := ih others
            simp only [List.length_cons]
            omega
          · cases taken

theorem mark_length {expected text : List Char} {length : Nat}
    (taken : mark expected text = some length) :
    length = expected.length ∧ length ≤ text.length :=
  length_of_pairwise (fun _ => by rw [mark]) (fun _ _ => by rw [mark])
    (fun _ _ _ _ => by rw [mark]) taken

theorem letters_length {expected text : List Char} {length : Nat}
    (taken : letters expected text = some length) :
    length = expected.length ∧ length ≤ text.length :=
  length_of_pairwise (fun _ => by rw [letters]) (fun _ _ => by rw [letters])
    (fun _ _ _ _ => by rw [letters]) taken

theorem keyword_length {word : String} {text : List Char} {length : Nat}
    (taken : keyword word text = some length) :
    length = word.toList.length ∧ length ≤ text.length := by
  simp only [keyword, before] at taken
  split at taken
  · rename_i size step
    split at taken
    · cases taken
      exact letters_length step
    · cases taken
  · cases taken

theorem triviaFrom_le (known : Nat) (text : List Char) : triviaFrom known text ≤ text.length := by
  induction text generalizing known with
  | nil => cases known <;> exact Nat.le_refl 0
  | cons character rest ih =>
      unfold triviaFrom
      split
      · exact Nat.succ_le_succ (ih _)
      · split
        · exact Nat.zero_le _
        · exact Nat.succ_le_succ (ih _)

theorem bounded_mark (expected : List Char) : (mark expected).Bounded :=
  fun taken => (mark_length taken).2

theorem bounded_keyword (word : String) : (keyword word).Bounded :=
  fun taken => (keyword_length taken).2

end Lexeme

namespace Cursor

/-- The cursor stands at an offset of a text and has the parts of every place from there on. -/
def StandsAt (text : List Char) (offset : Nat) (cursor : Cursor) : Prop :=
  ∃ misread, cursor = onTable (Nested.ofText text) text offset misread

variable {text : List Char} {offset length : Nat} {cursor later : Cursor}

theorem StandsAt.reaches (stands : cursor.StandsAt text offset) (reached : cursor.Reaches later) :
    later.StandsAt text later.offset := by
  obtain ⟨misread, rfl⟩ := stands
  exact ⟨later.misread, reaches_onTable reached⟩

theorem offset_advance (bound : length ≤ cursor.rest.length) :
    (cursor.advance length).offset = cursor.offset + length := by
  rw [(passes_advance length cursor).offset, List.length_take, Nat.min_eq_left bound]

theorem StandsAt.advance (stands : cursor.StandsAt text offset)
    (bound : length ≤ (text.drop offset).length) :
    (cursor.advance length).StandsAt text (offset + length) := by
  have moved := stands.reaches (reaches_advance length cursor)
  obtain ⟨misread, rfl⟩ := stands
  rwa [offset_advance bound] at moved

theorem Within.advance (within : cursor.Within (Nested.ofText text) text)
    (bound : length ≤ cursor.rest.length) (moved : 0 < length) :
    (cursor.advance length).StandsAt text (cursor.offset + length) := by
  have passes := passes_advance length cursor
  have some : cursor.rest.take length ≠ [] := by
    intro none
    have size := congrArg List.length none
    rw [List.length_take, Nat.min_eq_left bound, List.length_nil] at size
    omega
  have stands : (cursor.advance length).StandsAt text (cursor.advance length).offset :=
    ⟨_, within.eq_onTable passes some⟩
  rwa [offset_advance bound] at stands

end Cursor

/-- The text from the first offset to the last one is made up of the lexemes. -/
inductive Phrase (text : List Char) : List Lexeme → Nat → Nat → Prop
  | nil {offset : Nat} : Phrase text [] offset offset
  | cons {rule : Lexeme} {rules : List Lexeme} {first length last : Nat}
      (taken : rule (text.drop first) = some length)
      (rest : Phrase text rules (first + length) last) : Phrase text (rule :: rules) first last

/-- The grammar reads the value between two offsets of the text. -/
def Reads (text : List Char) {Value : Type} (rule : Nested → Reader Value) (first : Nat)
    (value : Value) (last : Nat) : Prop :=
  ∃ cursor later, cursor.StandsAt text first ∧ later.StandsAt text last ∧
    (rule (Nested.ofText text)).run cursor = some (value, later)

/-- The mark for a reference is there or is not. -/
def ReferenceMark (text : List Char) (marked : Bool) (first last : Nat) : Prop :=
  if marked then Phrase text [.mark ['&'], .blank] first last else first = last

/-- A target, perhaps behind a mark for a reference, and perhaps a key before both. -/
inductive LoopTarget (text : List Char) (first : Nat) :
    Option Expr → Bool → Expr → Nat → Prop
  | plain {marked : Bool} {second last : Nat} {target : Expr}
      (mark : ReferenceMark text marked first second)
      (read : Reads text Reader.chain second target last) :
      LoopTarget text first none marked target last
  | keyed {marked : Bool} {second third fourth last : Nat} {key target : Expr}
      (keyRead : Reads text Reader.chain first key second)
      (arrow : Phrase text [.blank, .mark ['=', '>'], .blank] second third)
      (mark : ReferenceMark text marked third fourth)
      (read : Reads text Reader.chain fourth target last) :
      LoopTarget text first (some key) marked target last

/-- The header of a loop starts at an offset of the text. -/
def LoopHeader (text : List Char) (first : Nat) (items : Expr) (key : Option Expr) (marked : Bool)
    (target : Expr) : Prop :=
  ∃ second third fourth fifth last,
    Phrase text [.keyword "foreach", .blank, .mark ['('], .blank] first second ∧
    Reads text Reader.expression second items third ∧
    Phrase text [.blank, .keyword "as", .blank] third fourth ∧
    LoopTarget text fourth key marked target fifth ∧
    Phrase text [.blank, .mark [')'], .blank] fifth last

theorem LoopHeader.offset_le {text : List Char} {first : Nat} {items : Expr} {key : Option Expr}
    {marked : Bool} {target : Expr} (header : LoopHeader text first items key marked target) :
    first ≤ text.length := by
  obtain ⟨_, _, _, _, _, opening, _⟩ := header
  cases opening with
  | cons taken rest =>
      obtain ⟨size, bound⟩ := Lexeme.keyword_length taken
      have long : "foreach".toList.length = 7 := rfl
      rw [List.length_drop] at bound
      omega

namespace Reader

variable {text : List Char} {first : Nat} {Value : Type} {value : Value} {cursor later : Cursor}

/-! Each step of a reading from a place of the text ends at a place of the text. -/

theorem skip_stands {nothing : Unit} (stands : cursor.StandsAt text first)
    (read : skip.run cursor = some (nothing, later)) :
    ∃ length, Lexeme.blank (text.drop first) = some length ∧
      later.StandsAt text (first + length) := by
  have rest : cursor.rest = text.drop first := by
    obtain ⟨misread, rfl⟩ := stands
    rfl
  cases read
  rw [rest]
  exact ⟨_, rfl, stands.advance (Lexeme.triviaFrom_le 0 _)⟩

theorem skip_then {next : Unit → Reader Value} (stands : cursor.StandsAt text first)
    (read : (skip >>= next).run cursor = some (value, later)) :
    ∃ length middle, Lexeme.blank (text.drop first) = some length ∧
      middle.StandsAt text (first + length) ∧ (next ()).run middle = some (value, later) := by
  obtain ⟨_, middle, skipped, behind⟩ := run_bind read
  obtain ⟨length, gap, ended⟩ := skip_stands stands skipped
  exact ⟨length, middle, gap, ended, behind⟩

theorem token_then {rule : Lexeme} {next : Unit → Reader Value} (bounded : rule.Bounded)
    (stands : cursor.StandsAt text first)
    (read : (token rule >>= next).run cursor = some (value, later)) :
    ∃ length middle, rule (text.drop first) = some length ∧
      middle.StandsAt text (first + length) ∧ (next ()).run middle = some (value, later) := by
  have rest : cursor.rest = text.drop first := by
    obtain ⟨misread, rfl⟩ := stands
    rfl
  obtain ⟨_, middle, found, behind⟩ := run_bind read
  simp only [token, rest] at found
  split at found
  · rename_i length taken
    cases found
    exact ⟨length, _, taken, stands.advance (bounded taken), behind⟩
  · cases found

/-- A word is where the reading of a part of the text gets away from its first place. -/
theorem keyword_then {word : String} {next : Unit → Reader Value} (long : 0 < word.toList.length)
    (within : cursor.Within (Nested.ofText text) text)
    (read : (keyword word >>= next).run cursor = some (value, later)) :
    ∃ length middle, Lexeme.keyword word (text.drop cursor.offset) = some length ∧
      middle.StandsAt text (cursor.offset + length) ∧
      (next ()).run middle = some (value, later) := by
  obtain ⟨_, middle, found, behind⟩ := run_bind read
  simp only [keyword, token] at found
  split at found
  · rename_i length taken
    cases found
    obtain ⟨same, bound⟩ := Lexeme.keyword_length taken
    have stands := within.advance bound (by omega)
    rw [within.rest] at taken
    exact ⟨length, _, taken, stands, behind⟩
  · cases found

theorem reads_of_run {Part : Type} {rule : Nested → Reader Part} {part : Part}
    (stands : cursor.StandsAt text first)
    (read : (rule (Nested.ofText text)).run cursor = some (part, later)) :
    ∃ last, Reads text rule first part last ∧ later.StandsAt text last := by
  have ended := stands.reaches ((rule (Nested.ofText text)).moves read)
  exact ⟨later.offset, ⟨cursor, later, stands, ended, read⟩, ended⟩

theorem reads_then {Part : Type} {rule : Nested → Reader Part} {next : Part → Reader Value}
    (stands : cursor.StandsAt text first)
    (read : (rule (Nested.ofText text) >>= next).run cursor = some (value, later)) :
    ∃ part last middle, Reads text rule first part last ∧ middle.StandsAt text last ∧
      (next part).run middle = some (value, later) := by
  obtain ⟨part, middle, found, behind⟩ := run_bind read
  obtain ⟨last, reads, ended⟩ := reads_of_run stands found
  exact ⟨part, last, middle, reads, ended, behind⟩

theorem byRef_then {next : Bool → Reader Value} (stands : cursor.StandsAt text first)
    (read : (byRef >>= next).run cursor = some (value, later)) :
    ∃ marked last middle, ReferenceMark text marked first last ∧ middle.StandsAt text last ∧
      (next marked).run middle = some (value, later) := by
  obtain ⟨marked, middle, found, behind⟩ := run_bind read
  rcases run_given found with ⟨_, rfl, signed⟩ | ⟨rfl, rfl⟩
  · obtain ⟨size, second, mark, atGap, skipped⟩ :=
      token_then (Lexeme.bounded_mark _) stands signed
    obtain ⟨length, gap, ended⟩ := skip_stands atGap skipped
    exact ⟨true, _, middle, .cons mark (.cons gap .nil), ended, behind⟩
  · exact ⟨false, first, middle, rfl, stands, behind⟩

/-- A key is one only if an arrow follows; without an arrow it was the target already. -/
theorem foreachTarget_reads {found : Option Expr × Bool × Expr}
    (stands : cursor.StandsAt text first)
    (read : (foreachTarget (Nested.ofText text)).run cursor = some (found, later)) :
    ∃ last, LoopTarget text first found.1 found.2.1 found.2.2 last ∧
      later.StandsAt text last := by
  unfold foreachTarget at read
  obtain ⟨option, second, tried, others⟩ := run_bind read
  rcases run_perhaps tried with ⟨value, rfl, chained⟩ | ⟨rfl, rfl⟩
  · obtain ⟨middle, keyRead, atArrow⟩ := reads_of_run stands chained
    obtain ⟨arrow, third, arrowTried, targetRead⟩ := run_bind others
    rcases run_given arrowTried with ⟨_, rfl, arrowRead⟩ | ⟨rfl, rfl⟩
    · obtain ⟨_, _, gap, atMark, arrowRead⟩ := skip_then atArrow arrowRead
      obtain ⟨_, _, mark, atGap, arrowRead⟩ :=
        token_then (Lexeme.bounded_mark _) atMark arrowRead
      obtain ⟨_, lastGap, atTarget⟩ := skip_stands atGap arrowRead
      have arrow := Phrase.cons gap (.cons mark (.cons lastGap .nil))
      obtain ⟨marked, _, _, reference, atTarget, targetRead⟩ := byRef_then atTarget targetRead
      obtain ⟨target, last, _, chained, ended, given⟩ := reads_then atTarget targetRead
      cases given
      exact ⟨last, .keyed keyRead arrow reference chained, ended⟩
    · cases targetRead
      exact ⟨middle, .plain rfl keyRead, atArrow⟩
  · obtain ⟨marked, _, _, reference, atTarget, targetRead⟩ := byRef_then stands others
    obtain ⟨target, last, _, chained, ended, given⟩ := reads_then atTarget targetRead
    cases given
    exact ⟨last, .plain reference chained, ended⟩

/-- A loop over items keeps the expressions of the header it starts with. -/
theorem foreachStatement_reads {statement : Stmt}
    (within : cursor.Within (Nested.ofText text) text)
    (read : (foreachStatement (Nested.ofText text)).run cursor = some (statement, later)) :
    ∃ items key marked body target,
      statement = .foreachLoop cursor.span items key marked body target ∧
      LoopHeader text cursor.offset items key marked target := by
  unfold foreachStatement at read
  obtain ⟨span, start, place, read⟩ := run_bind read
  cases place
  obtain ⟨_, _, word, atGap, read⟩ := keyword_then (by decide) within read
  obtain ⟨_, _, gap, atMark, read⟩ := skip_then atGap read
  obtain ⟨_, _, mark, atGap, read⟩ := token_then (Lexeme.bounded_mark _) atMark read
  obtain ⟨_, _, lastGap, atItems, read⟩ := skip_then atGap read
  have opening := Phrase.cons word (.cons gap (.cons mark (.cons lastGap .nil)))
  obtain ⟨items, _, _, itemsRead, atGap, read⟩ := reads_then atItems read
  obtain ⟨_, _, gap, atWord, read⟩ := skip_then atGap read
  obtain ⟨_, _, word, atGap, read⟩ := token_then (Lexeme.bounded_keyword _) atWord read
  obtain ⟨_, _, lastGap, atTarget, read⟩ := skip_then atGap read
  have joint := Phrase.cons gap (.cons word (.cons lastGap .nil))
  obtain ⟨⟨key, marked, target⟩, _, header, read⟩ := run_bind read
  obtain ⟨_, targetRead, atGap⟩ := foreachTarget_reads atTarget header
  obtain ⟨_, _, gap, atMark, read⟩ := skip_then atGap read
  obtain ⟨_, _, mark, atGap, read⟩ := token_then (Lexeme.bounded_mark _) atMark read
  obtain ⟨_, _, lastGap, atBody, read⟩ := skip_then atGap read
  have closing := Phrase.cons gap (.cons mark (.cons lastGap .nil))
  obtain ⟨body, _, _, given⟩ := run_bind read
  cases given
  exact ⟨items, key, marked, body, target, rfl, _, _, _, _, _, opening, itemsRead, joint,
    targetRead, closing⟩

end Reader

end PhpAudit
