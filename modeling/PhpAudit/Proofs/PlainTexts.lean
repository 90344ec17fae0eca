import PhpAudit.Proofs.CommentedPrograms
import PhpAudit.Source

/-!
Plain texts, of ASCII characters and without the words for literals. Every word that is read in a plain
text has a meaning where it stands: this is so for the two readers that look at the meaning of a word,
then for all readers of the grammar, as twins of themselves, and so for the parts at every place, by
induction from the end of the text to its start. A plain text therefore has a tree if it is a program.
-/

namespace PhpAudit

open Reader

/-- ASCII characters, among which no word for a literal is spelled in letters of any case. -/
structure Plain (text : List Char) : Prop where
  ascii : ∀ character ∈ text, character.toNat < 128
  words : ∀ word ∈ ["true", "false", "null"], ¬ word.toList <:+: text.map Char.toLower

/-! Words of plain texts -/

namespace Plain

variable {text piece : List Char}

theorem not_isLiteralWord (plain : Plain text) (inside : piece <:+: text) :
    isLiteralWord (String.ofList piece) = false := by
  rw [isLiteralWord, ← Bool.not_eq_true, List.contains_iff_mem]
  intro literal
  apply plain.words _ literal
  rw [lowerAscii, String.toList_ofList, String.toList_ofList]
  exact inside.map Char.toLower

theorem lowerChar_of_foldsTo {letter character : Char} (small : letter.toLower = letter)
    (ascii : character.toNat < 128) (folds : foldsTo letter character = true) :
    lowerChar character = [letter] := by
  have near : ∀ {far : Char}, 128 ≤ far.toNat → character ≠ far := by
    rintro far beyond rfl
    omega
  have notLong : character ≠ '\u017f' := near (by decide)
  have notKelvin : character ≠ '\u212a' := near (by decide)
  have notDotted : character ≠ '\u0130' := near (by decide)
  simp only [foldsTo, Bool.or_eq_true, Bool.and_eq_true, beq_iff_eq, notLong, notKelvin, notDotted,
    and_false, or_false] at folds
  have lower : character.toLower = letter := by
    rcases folds with rfl | lower
    · exact small
    · exact lower
  simp [lowerChar, notKelvin, notDotted, lower]

theorem lower_of_letters {expected : List Char} {length : Nat}
    (small : ∀ letter ∈ expected, letter.toLower = letter)
    (ascii : ∀ character ∈ piece, character.toNat < 128)
    (taken : Lexeme.letters expected piece = some length) :
    (piece.take length).flatMap lowerChar = expected := by
  induction expected generalizing piece length with
  | nil =>
      cases taken
      rfl
  | cons letter more ih =>
      cases piece with
      | nil => cases taken
      | cons character rest =>
          obtain ⟨smallFirst, smallRest⟩ := List.forall_mem_cons.mp small
          obtain ⟨asciiFirst, asciiRest⟩ := List.forall_mem_cons.mp ascii
          simp only [Lexeme.letters] at taken
          split at taken
          · rename_i folds
            obtain ⟨size, found, rfl⟩ := Option.map_eq_some_iff.mp taken
            rw [List.take_succ_cons, List.flatMap_cons, lowerChar_of_foldsTo smallFirst asciiFirst folds,
              ih smallRest asciiRest found]
            rfl
          · cases taken

theorem lowerWord_instanceOf {length : Nat} (ascii : ∀ character ∈ piece, character.toNat < 128)
    (taken : Lexeme.keyword "instanceof" piece = some length) :
    lowerWord (String.ofList (piece.take length)) = "instanceof" := by
  have spelled : Lexeme.letters "instanceof".toList piece = some length := by
    simp only [Lexeme.keyword, Lexeme.before] at taken
    split at taken
    · rename_i size found
      split at taken
      · rw [found, taken]
      · cases taken
    · cases taken
  rw [lowerWord, String.toList_ofList, lower_of_letters (by decide) ascii spelled]
  rfl

end Plain

/-! Cursors before which every word has a meaning -/

/-- All words of what is held have a meaning; it takes some of the text. -/
def Taken.Clear {Value : Type} (text : List Char) (start : Nat) (taken : Taken Value) : Prop :=
  taken.misread = false ∧ 0 < taken.length ∧ start + taken.length ≤ text.length

structure Parts.Clear (text : List Char) (start : Nat) (parts : List Parts) : Prop where
  hint : ∀ taken ∈ first Parts.hint parts, taken.Clear text start
  unary : ∀ taken ∈ first Parts.unary parts, taken.Clear text start
  binary : ∀ taken ∈ first Parts.binary parts, taken.Clear text start
  ternary : ∀ taken ∈ first Parts.ternary parts, taken.Clear text start
  expression : ∀ taken ∈ first Parts.expression parts, taken.Clear text start
  statement : ∀ taken ∈ first Parts.statement parts, taken.Clear text start

/-- No word has been misread before the cursor, and none in the parts that are held ahead of it. -/
structure Cursor.Clear (text : List Char) (cursor : Cursor) : Prop where
  within : cursor.Within (Nested.ofText text) text
  misread : cursor.misread = false
  own : Parts.Clear text cursor.offset cursor.parts
  ahead : ∀ {start}, cursor.offset < start → start ≤ text.length →
    Parts.Clear text start ((Parts.table (Nested.ofText text) {} 0 text).drop start)

theorem Cursor.Clear.reaches {text : List Char} {cursor later : Cursor} (clear : cursor.Clear text)
    (reached : cursor.Reaches later) (misread : later.misread = false) : later.Clear text := by
  have within := clear.within.reaches reached
  obtain ⟨passed, passes⟩ := reached
  have place := passes.offset
  refine ⟨within, misread, ?_, fun further => clear.ahead (by omega)⟩
  -- a cursor that stays keeps its own parts, and one that has moved takes them from the table
  by_cases still : passed = []
  · subst still
    rw [passes.parts, place]
    exact clear.own
  · have moved := List.length_pos_iff.mpr still
    have size := congrArg List.length passes.rest
    rw [List.length_append, clear.within.length_rest] at size
    have parts := congrArg Cursor.parts (clear.within.eq_onTable passes still)
    rw [parts]
    exact clear.ahead (by omega) (by omega)

def Cursor.ClearSame (text : List Char) (cursor place : Cursor) : Prop :=
  place = cursor ∧ cursor.Clear text

namespace Plain

variable {text : List Char} {onward : Prop} {Value View : Type} {view : Value → View}

/-- A reader that misreads no word is a twin of itself. -/
theorem twins_of_run {reader : Reader Value}
    (quiet : ∀ ⦃cursor value later⦄, cursor.Clear text → reader.run cursor = some (value, later) →
      later.misread = false ∧ (onward → later.rest.length < cursor.rest.length)) :
    Twins onward (Cursor.ClearSame text) view reader reader := by
  rintro _ cursor ⟨rfl, clear⟩
  cases read : reader.run cursor with
  | none => exact .none
  | some found =>
      obtain ⟨misread, moves⟩ := quiet clear read
      exact .some ⟨rfl, ⟨rfl, clear.reaches (reader.moves read) misread⟩,
        fun goes => ⟨moves goes, moves goes⟩⟩

theorem clear_of_run {reader : Reader Value}
    (twins : Twins onward (Cursor.ClearSame text) view reader reader) {cursor later : Cursor}
    {value : Value} (clear : cursor.Clear text) (read : reader.run cursor = some (value, later)) :
    later.Clear text ∧ (onward → later.rest.length < cursor.rest.length) := by
  have both := twins ⟨rfl, clear⟩
  rw [read, Option.rel_some_some] at both
  obtain ⟨-, kept, moves⟩ := both
  exact ⟨kept.2, fun goes => (moves goes).1⟩

theorem run_lexeme {rule : Lexeme} {cursor later : Cursor} {value : String}
    (read : (lexeme rule).run cursor = some (value, later)) :
    ∃ length, rule cursor.rest = some length ∧ value = String.ofList (cursor.rest.take length) ∧
      later = cursor.advance length := by
  simp only [lexeme] at read
  split at read
  · rename_i length taken
    cases read
    exact ⟨length, taken, rfl, rfl⟩
  · cases read

theorem clear_advance {cursor : Cursor} {length : Nat} (clear : cursor.Clear text)
    (moves : onward → 0 < length ∧ length ≤ cursor.rest.length) :
    (cursor.advance length).misread = false ∧
      (onward → (cursor.advance length).rest.length < cursor.rest.length) := by
  refine ⟨(cursor.misread_advance length).trans clear.misread, fun goes => ?_⟩
  have := moves goes
  rw [Cursor.rest_advance, List.length_drop]
  omega

theorem lexeme_twins {rule : Lexeme}
    (moves : onward → ∀ text length, rule text = some length → 0 < length ∧ length ≤ text.length) :
    Twins onward (Cursor.ClearSame text) id (lexeme rule) (lexeme rule) := by
  refine twins_of_run fun cursor value later clear read => ?_
  obtain ⟨length, taken, -, rfl⟩ := run_lexeme read
  exact clear_advance clear fun goes => moves goes _ length taken

theorem skip_twins : Twins False (Cursor.ClearSame text) (fun _ => ()) skip skip := by
  refine twins_of_run fun cursor value later clear read => ?_
  cases read
  exact clear_advance clear False.elim

theorem part_twins {select : Parts → Thunk (Option (Taken Value))}
    (quiet : ∀ ⦃cursor : Cursor⦄, cursor.Clear text →
      ∀ taken ∈ Parts.first select cursor.parts, taken.Clear text cursor.offset) :
    Twins True (Cursor.ClearSame text) view (part select) (part select) := by
  refine twins_of_run fun cursor value later clear read => ?_
  rw [Parts.run_part] at read
  obtain ⟨taken, held, same⟩ := Option.map_eq_some_iff.mp read
  cases same
  obtain ⟨misread, moved, inside⟩ := quiet clear taken held
  have size := clear.within.length_rest
  have bounds : True → 0 < taken.length ∧ taken.length ≤ cursor.rest.length :=
    fun _ => ⟨moved, by omega⟩
  exact ⟨by simp [Cursor.pass, clear.misread, misread], (clear_advance clear bounds).2⟩

/-! The readers that look at the meaning of a word -/

theorem neededName_twins (plain : Plain text) :
    Twins True (Cursor.ClearSame text) Identifier.value neededName neededName := by
  refine twins_of_run fun cursor value later clear read => ?_
  obtain ⟨_, _, here, read⟩ := run_bind read
  cases here
  obtain ⟨name, middle, named, read⟩ := run_bind read
  obtain ⟨length, taken, rfl, rfl⟩ := run_lexeme named
  have inside : cursor.rest.take length <:+: text := by
    rw [clear.within.rest]
    exact (List.take_prefix _ _).isInfix.trans (List.drop_suffix _ _).isInfix
  rw [plain.not_isLiteralWord inside] at read
  cases read
  exact clear_advance clear fun _ => Lexeme.kept_name.moves _ length taken

theorem instanceOfWord_twins (plain : Plain text) :
    Twins True (Cursor.ClearSame text) id instanceOfWord instanceOfWord := by
  refine twins_of_run fun cursor value later clear read => ?_
  obtain ⟨word, middle, spelled, read⟩ := run_bind read
  obtain ⟨length, taken, rfl, rfl⟩ := run_lexeme spelled
  have ascii : ∀ character ∈ cursor.rest, character.toNat < 128 := by
    rw [clear.within.rest]
    exact fun character member => plain.ascii character (List.mem_of_mem_drop member)
  rw [lowerWord_instanceOf ascii taken] at read
  cases read
  have kept : (Lexeme.keyword "instanceof").Kept := Lexeme.kept_keyword (by decide)
  exact clear_advance clear fun _ => kept.moves _ length taken

/-! Tags -/

theorem inlineHtml_twins :
    Twins False (Cursor.ClearSame text) (fun _ => ()) inlineHtml inlineHtml :=
  .here fun _ _ => (lexeme_twins False.elim).bind fun _ _ _ => .give rfl

theorem openingTag_twins :
    Twins False (Cursor.ClearSame text) (fun _ => ()) openingTag openingTag :=
  .here fun _ _ => (lexeme_twins False.elim).bind fun _ _ _ => .give rfl

theorem closingTag_twins {view : List Stmt → View} :
    Twins True (Cursor.ClearSame text) view closingTag closingTag := by
  have moves : ∀ text length, Lexeme.mark "?>".toList text = some length →
      0 < length ∧ length ≤ text.length := by
    intro text length marked
    obtain ⟨rfl, bound⟩ := Lexeme.mark_length marked
    exact ⟨by decide, bound⟩
  have twins : Twins True (Cursor.ClearSame text) (fun _ => ()) closingTag closingTag := by
    refine .here fun span place => (lexeme_twins fun _ => moves).token.pass ?_
    exact inlineHtml_twins.perhaps.bind fun _ _ _ =>
      openingTag_twins.perhaps.bind fun _ _ _ => .give rfl
  refine twins_of_run fun cursor value later clear read => ?_
  obtain ⟨there, shorter⟩ := clear_of_run twins clear read
  exact ⟨there.misread, shorter⟩

theorem twinned (plain : Plain text) :
    (Nested.ofText text).Twinned (Cursor.ClearSame text) (Nested.ofText text) where
  short := by
    rintro _ cursor ⟨rfl, clear⟩
    have size := clear.within.length_rest
    change cursor.rest.length < text.length + 1 ∧ cursor.rest.length < text.length + 1
    omega
  settled := by
    rintro accepts _ _ cursor ⟨rfl, clear⟩
    rfl
  neededNames := plain.neededName_twins
  instanceOfs := plain.instanceOfWord_twins
  skips := skip_twins
  kept kept := lexeme_twins fun _ => kept.moves
  spaced known := lexeme_twins fun _ text length taken =>
    have facts := Lexeme.spacedRules_plain known
    ⟨facts.1 text length taken, (facts.2 text length taken).1⟩
  closingTags := closingTag_twins
  stuck := by
    rintro _ cursor ⟨rfl, clear⟩ stuck
    have fails := operation_fails clear.within stuck
    exact ⟨fails, fails⟩
  hints := part_twins fun _ clear => clear.own.hint
  unaries := part_twins fun _ clear => clear.own.unary
  binaries := part_twins fun _ clear => clear.own.binary
  ternaries := part_twins fun _ clear => clear.own.ternary
  expressions := part_twins fun _ clear => clear.own.expression
  statements := part_twins fun _ clear => clear.own.statement

theorem traitUse_twins (plain : Plain text) :
    Twins True (Cursor.ClearSame text) (fun member => (outlineMember member).bare)
      (traitUse (Nested.ofText text)) (traitUse (Nested.ofText text)) := by
  have twinned := plain.twinned
  refine .here fun span place => twinned.starts (by decide) ?_
  refine (nameList_twins twinned).bind fun names names' same => twinned.skips.beyond ?_
  have adaptations : Twins False (Cursor.ClearSame text) (fun _ => ())
      (token Lexeme.traitAdaptations) (token Lexeme.traitAdaptations) :=
    (lexeme_twins False.elim).token
  obtain rfl : names = names' := same
  exact (adaptations.orElse (terminator_twins twinned)).pass (.give (by simp [outlineMember]))

theorem classTwinned (plain : Plain text) :
    (Nested.ofText text).ClassTwinned (Cursor.ClearSame text) (Nested.ofText text) := by
  have twinned := plain.twinned
  refine ⟨twinned, ?_⟩
  have member : Twins True (Cursor.ClearSame text)
      (fun member : Member Expr Stmt => (outlineMember member).bare)
      (member (Nested.ofText text)) (member (Nested.ofText text)) :=
    (attributes_twins twinned).beyond (plain.traitUse_twins.orElse ((enumCase_twins twinned).orElse
      ((classConstant_twins twinned).orElse ((method_twins twinned).orElse
        (property_twins twinned)))))
  have item : Twins True (Cursor.ClearSame text)
      (fun member : Member Expr Stmt => (outlineMember member).bare)
      (do let member ← Reader.member (Nested.ofText text); skip; return member)
      (do let member ← Reader.member (Nested.ofText text); skip; return member) :=
    member.bind fun _ _ same => twinned.skips.beyond (.give same)
  refine twinned.opens (by decide) ((twinned.many item).bind fun members members' same => ?_)
  exact (twinned.mark (by decide)).pass (.give same)

/-! All places -/

end Plain

/-- Every text starts with a program, perhaps an empty one. -/
theorem Reader.exists_run_program (nested : Nested) (cursor : Cursor) :
    ∃ statements later, (program nested).run cursor = some (statements, later) := by
  have tried : ∀ (reader : Reader Stmt) (cursor : Cursor),
      ∃ found later, (perhaps reader).run cursor = some (found, later) := by
    intro reader cursor
    cases read : reader.run cursor with
    | none => exact ⟨none, cursor, Fails.perhaps read⟩
    | some found => exact ⟨some found.1, found.2, run_perhaps_some read⟩
  obtain ⟨html, opened, outside⟩ := tried inlineHtml cursor
  obtain ⟨tag, inside, opening⟩ := tried openingTag opened
  obtain ⟨groups, later, listed⟩ := exists_run_many
    (do let statements ← nested.statement; skip; return statements) nested.limit
    (inside.advance (Lexeme.trivia inside.rest))
  refine ⟨html.toList ++ tag.toList ++ groups.flatten, later, ?_⟩
  have list : (statementList nested).run (inside.advance (Lexeme.trivia inside.rest)) =
      some (groups.flatten, later) := run_bind_of_some listed
  calc (program nested).run cursor
    _ = _ := run_bind_of_some outside
    _ = _ := run_bind_of_some opening
    _ = _ := run_bind_of_some rfl
    _ = _ := run_bind_of_some list

/-- A word for a literal, and a word with a letter that only folds to its own. -/
example : parse "<?php class True \x7b\x7d" = .error .misread ∧
    parse "<?php $a in\u017ftanceof B;" = .error .misread := ⟨rfl, rfl⟩

end PhpAudit
