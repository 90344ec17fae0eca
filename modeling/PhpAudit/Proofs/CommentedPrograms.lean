import PhpAudit.Proofs.ClauseWords
import PhpAudit.Proofs.CommentGaps
import PhpAudit.Proofs.TwinStatements

/-!
Programs with a comment in place of white space. Cursors of the two texts of a gap are related if they
stand at the same place and hold parts that look alike, here and at all places ahead. All readers of
the grammar are twins for that relation, and so the parts look alike at every place, by induction from
the end of the text to its start.
-/

namespace PhpAudit

open Reader

namespace Cursor

theorem misread_advance (count : Nat) (cursor : Cursor) :
    (cursor.advance count).misread = cursor.misread := by
  induction count generalizing cursor with
  | zero => rfl
  | succ count ih =>
      have next : cursor.next.misread = cursor.misread := by
        cases ahead : cursor.rest <;> simp [Cursor.next, ahead]
      rw [advance, ih, next]

theorem advance_advance (count more : Nat) (cursor : Cursor) :
    (cursor.advance count).advance more = cursor.advance (count + more) := by
  induction count generalizing cursor with
  | zero => rw [Nat.zero_add]; rfl
  | succ count ih => rw [advance, ih, Nat.add_right_comm, advance]

theorem Within.length_rest {text : List Char} {nested : Nested} {cursor : Cursor}
    (within : cursor.Within nested text) : cursor.rest.length = text.length - cursor.offset := by
  rw [within.rest, List.length_drop]

end Cursor

namespace Parts

/-- What the first of the parts hold. -/
def first {Value : Type} (select : Parts → Thunk (Option (Taken Value))) (parts : List Parts) :
    Option (Taken Value) :=
  parts.head?.bind fun found => (select found).get

theorem run_part {Value : Type} (select : Parts → Thunk (Option (Taken Value))) (cursor : Cursor) :
    (part select).run cursor =
      (first select cursor.parts).map fun taken => (taken.value, cursor.pass taken) := by
  cases ahead : cursor.parts with
  | nil => simp [part, first, ahead]
  | cons parts others => cases held : (select parts).get <;> simp [part, first, ahead, held]

/-- The parts at a place start at a cursor that holds nothing for the place itself. -/
theorem exists_drop_table (nested : Nested) {text : List Char} {offset : Nat}
    (inside : offset ≤ text.length) :
    ∃ cursor : Cursor, cursor.Within nested text ∧ cursor.offset = offset ∧ cursor.misread = false ∧
      (cursor.parts = [] ∨ ∃ others, cursor.parts = nothing :: others) ∧
      (table nested {} 0 text).drop offset = startingAt nested cursor :: cursor.parts.tail := by
  have size : (text.take offset).length = offset := by simp [inside]
  have dropped := drop_table nested {} 0 (text.take offset) (text.drop offset)
  rw [List.take_append_drop, size, Nat.zero_add] at dropped
  obtain ⟨parts, same, fresh⟩ : ∃ parts : List Parts,
      table nested (({} : Span).after (text.take offset)) offset (text.drop offset) =
        startingAt nested ⟨text.drop offset, ({} : Span).after (text.take offset), offset, false,
          parts⟩ :: parts.tail ∧ (parts = [] ∨ ∃ others, parts = nothing :: others) := by
    cases text.drop offset with
    | nil => exact ⟨[], rfl, .inl rfl⟩
    | cons character rest => exact ⟨nothing :: _, rfl, .inr ⟨_, rfl⟩⟩
  refine ⟨⟨text.drop offset, ({} : Span).after (text.take offset), offset, false, parts⟩,
    ⟨rfl, rfl, ?_⟩, rfl, rfl, fresh, dropped.trans same⟩
  rw [← List.tail_drop, dropped, same, List.tail_cons]

end Parts

namespace Lexeme

theorem letters_of_head {first character : Char} {more rest : List Char}
    (apart : foldsTo first character = false) : letters (first :: more) (character :: rest) = none := by
  simp [letters, apart]

/-- No operand starts with the sign of a comparison or an ampersand, other than a heredoc. -/
theorem noOperand_sign {sign : Char} (known : sign ∈ ['<', '>', '&']) {rest : List Char}
    (none' : heredoc (sign :: rest) = none) : NoOperand (sign :: rest) := by
  have spelled : ∀ sign ∈ ['<', '>', '&'], ∀ word ∈ openingWords ++ ["array", "list", "match"],
      word.toList.head?.any (fun letter => !foldsTo letter sign) = true := by decide
  have letter : ∀ {word}, word ∈ openingWords ++ ["array", "list", "match"] →
      letters word.toList (sign :: rest) = none := by
    intro word listed
    have first := spelled sign known word listed
    cases same : word.toList with
    | nil => simp [same] at first
    | cons letter others => exact letters_of_head (by simpa [same] using first)
  have tests : ∀ sign ∈ ['<', '>', '&'], isDecimalDigit sign = false ∧ isAnyCaseNameStart sign = false ∧
      sign ∉ operandSigns ∧ sign ∉ ['0', '.', '\\', '\'', '"', '\x60', 'b', 'B'] := by decide
  obtain ⟨digit, start, signs, others⟩ := tests sign known
  simp only [List.mem_cons, List.not_mem_nil, or_false, not_or] at others
  refine ⟨fun word listed => ?_, fun word listed => ?_, fun other listed => ?_, none', ?_, ?_, ?_⟩
  · simp [keyword, before, letter (List.mem_append_left _ listed)]
  · exact letter (List.mem_append_right _ listed)
  · have apart : sign ≠ other := fun same => signs (same ▸ listed)
    simp [one, apart]
  · simp [string, anyOf, followedBy, binaryMark, perhaps, one, others]
  · simp [number, anyOf, based, followedBy, digits, perhaps, one, others, digit]
  · simp [name, qualifiedBy, followedBy, perhaps, one, others, start]

end Lexeme

namespace Reader

/-! Operators that no operand follows -/

theorem run_binaryOperator {cursor : Cursor} {operator : BinaryOperator} {length : Nat}
    (found : binaryMarks.findSome? (fun entry =>
      (Lexeme.operatorMark entry.1.toList entry.2.1.toList cursor.rest).map fun length =>
        (entry.2.2, length)) = some (operator, length)) :
    binaryOperator.run cursor = some (operator, cursor.advance length) := by
  unfold binaryOperator
  revert found
  generalize binaryMarks = marks
  intro found
  induction marks with
  | nil => cases found
  | cons entry rest ih =>
      obtain ⟨text, excluded, symbol⟩ := entry
      rw [List.foldr_cons]
      rw [List.findSome?_cons] at found
      dsimp only at found ⊢
      cases taken : Lexeme.operatorMark text.toList excluded.toList cursor.rest with
      | none =>
          rw [taken] at found
          exact (Fails.bind (.token taken)).run_orElse.trans (ih found)
      | some size =>
          rw [taken] at found
          cases found
          have read : (token (Lexeme.operatorMark text.toList excluded.toList)).run cursor =
              some ((), cursor.advance length) := by
            simp only [token, taken]
          exact run_orElse_of_some (run_bind_of_some read)

theorem heldUnary_fails {text : List Char} {offset : Nat}
    (no : Lexeme.NoOperand (text.drop offset)) (inside : offset ≤ text.length) (misread : Bool) :
    (Nested.ofText text).unary.Fails
      (Cursor.onTable (Nested.ofText text) text offset misread) := by
  obtain ⟨cursor, within, place, -, -, held⟩ := Parts.exists_drop_table (Nested.ofText text) inside
  have fails : (unary (Nested.ofText text)).Fails cursor := by
    refine unary_fails ?_
    rwa [within.rest, place]
  change (part Parts.unary).run _ = none
  rw [Parts.run_part]
  change (Parts.first Parts.unary ((Parts.table (Nested.ofText text) {} 0 text).drop offset)).map _ =
    none
  rw [held]
  change ((unary (Nested.ofText text)).taken cursor).map _ = none
  simp only [taken, show (unary (Nested.ofText text)).run cursor = none from fails, Option.map_none]

/-- An operator that no operand can follow. -/
theorem operation_fails {text : List Char} {cursor : Cursor}
    (within : cursor.Within (Nested.ofText text) text) (stuck : Lexeme.stuck cursor.rest = true) :
    (operation (Nested.ofText text)).Fails cursor := by
  -- behind the operator stands a sign, which is neither white space nor the start of an operand
  have behind : ∀ {operator length sign rest}, binaryOperator.run cursor =
      some (operator, cursor.advance length) → 0 < length →
      cursor.rest.drop length = sign :: rest → Lexeme.triviaItem (sign :: rest) = 0 →
      Lexeme.NoOperand (sign :: rest) → (operation (Nested.ofText text)).Fails cursor := by
    intro operator length sign rest read moved ahead still no
    have bound : length ≤ cursor.rest.length := by
      have size := congrArg List.length ahead
      rw [List.length_drop, List.length_cons] at size
      omega
    have skips : skip.run (cursor.advance length) = some ((), cursor.advance length) := by
      simp only [skip, Cursor.rest_advance, ahead, Lexeme.trivia_zero still]
      rfl
    obtain ⟨misread, stands⟩ := within.advance bound moved
    refine .after read (.after skips (.bind ?_))
    rw [stands]
    refine heldUnary_fails ?_ ?_ misread
    · rwa [← List.drop_drop, ← within.rest, ahead]
    · have size := within.length_rest
      omega
  simp only [Lexeme.stuck, Bool.or_eq_true, Bool.and_eq_true, Bool.not_eq_true'] at stuck
  rcases stuck with ⟨opens, further⟩ | coalesce
  · obtain ⟨rest, ahead⟩ := Lexeme.opensHeredoc_cases opens
    have shut : Lexeme.opensHeredoc ('<' :: '<' :: rest) = false := by
      simpa [ahead, Lexeme.mark, Lexeme.opensHeredoc] using further
    have read : binaryOperator.run cursor = some (.less, cursor.advance 1) := by
      refine run_binaryOperator ?_
      rw [ahead]
      simp [binaryMarks, Lexeme.operatorMark, Lexeme.before, Lexeme.mark, Lexeme.startsWith]
    refine behind read Nat.one_pos (by rw [ahead]; rfl) rfl (Lexeme.noOperand_sign (by decide) ?_)
    exact Lexeme.heredoc_of_not_opens (show Lexeme.binaryMark _ = some 0 from rfl) shut
  · obtain ⟨length, marked⟩ := Option.isSome_iff_exists.mp coalesce
    have ahead := Lexeme.mark_eq_some marked
    generalize cursor.rest.drop length = rest at ahead
    have read : binaryOperator.run cursor = some (.coalesce, cursor.advance 2) := by
      refine run_binaryOperator ?_
      rw [ahead]
      simp [binaryMarks, Lexeme.operatorMark, Lexeme.before, Lexeme.mark, Lexeme.startsWith]
    refine behind read Nat.two_pos (by rw [ahead]; rfl) rfl (Lexeme.noOperand_sign (by decide) ?_)
    exact Lexeme.heredoc_of_not_opens (show Lexeme.binaryMark _ = some 0 from rfl) rfl

/-! Where readers end -/

/-- Wherever the reader succeeds on the text, it ends at such an offset. -/
def Halts {Value : Type} (text : List Char) (site : Nat → Prop) (reader : Reader Value) : Prop :=
  ∀ ⦃cursor value later⦄, cursor.Within (Nested.ofText text) text →
    reader.run cursor = some (value, later) → site later.offset

namespace Halts

variable {First Value : Type} {text : List Char} {site : Nat → Prop}

theorem last {reader : Reader First} {next : First → Reader Value}
    (halts : ∀ value, (next value).Halts text site) : (reader >>= next).Halts text site := by
  intro cursor value later within read
  obtain ⟨found, middle, step, read⟩ := run_bind read
  exact halts found (within.reaches (reader.moves step)) read

theorem map {reader : Reader First} {function : First → Value} (halts : reader.Halts text site) :
    (function <$> reader).Halts text site := by
  intro cursor value later within read
  obtain ⟨found, middle, step, read⟩ := run_bind read
  cases read
  exact halts within step

theorem orElse {reader other : Reader Value} (first : reader.Halts text site)
    (second : other.Halts text site) : (reader <|> other).Halts text site := by
  intro cursor value later within read
  rcases run_orElse read with read | read
  · exact first within read
  · exact second within read

theorem token {rule : Lexeme} (bounded : rule.Bounded)
    (there : ∀ {start length}, rule (text.drop start) = some length → site (start + length)) :
    (token rule).Halts text site := by
  intro cursor value later within read
  simp only [Reader.token] at read
  split at read
  · rename_i length taken
    cases read
    rw [Cursor.offset_advance (bounded taken)]
    rw [within.rest] at taken
    exact there taken
  · cases read

end Halts

/-! Tags -/

variable {cursor : Cursor}

theorem run_inlineHtml {length : Nat} (html : Lexeme.htmlLength cursor.rest = length) :
    (perhaps inlineHtml).run cursor =
      some (if length = 0 then none
        else some (.inlineHtml cursor.span (String.ofList (cursor.rest.take length))),
        cursor.advance length) := by
  cases length with
  | zero =>
      have none' : Lexeme.inlineHtml cursor.rest = none := by simp [Lexeme.inlineHtml, html]
      exact (Fails.here (.bind (.lexeme none'))).perhaps
  | succ more =>
      have some' : Lexeme.inlineHtml cursor.rest = some (more + 1) := by
        simp [Lexeme.inlineHtml, html]
      have read : (lexeme Lexeme.inlineHtml).run cursor =
          some (String.ofList (cursor.rest.take (more + 1)), cursor.advance (more + 1)) := by
        simp only [lexeme, some']
      exact run_perhaps_some ((run_bind_of_some rfl).trans (run_bind_of_some read))

theorem run_openingTag {tag : Option Nat} (opening : Lexeme.openingTag cursor.rest = tag) :
    (perhaps openingTag).run cursor =
      some (tag.map fun length => .openingTag cursor.span
        (lowerAscii (String.ofList (cursor.rest.take length))), cursor.advance (tag.getD 0)) := by
  cases tag with
  | none => exact (Fails.here (.bind (.lexeme opening))).perhaps
  | some length =>
      have read : (lexeme Lexeme.openingTag).run cursor =
          some (String.ofList (cursor.rest.take length), cursor.advance length) := by
        simp only [lexeme, opening]
      exact run_perhaps_some ((run_bind_of_some rfl).trans (run_bind_of_some read))

theorem run_closingTag {length : Nat} {middle later : Cursor} {html tag : Option Stmt}
    (marked : Lexeme.mark "?>".toList cursor.rest = some length)
    (read : (perhaps inlineHtml).run (cursor.advance length) = some (html, middle))
    (opened : (perhaps openingTag).run middle = some (tag, later)) :
    closingTag.run cursor = some (.closingTag cursor.span :: html.toList ++ tag.toList, later) := by
  have mark : (mark "?>").run cursor = some ((), cursor.advance length) := by
    simp only [mark, token, marked]
  calc closingTag.run cursor
    _ = _ := run_bind_of_some rfl
    _ = _ := run_bind_of_some mark
    _ = _ := run_bind_of_some read
    _ = _ := run_bind_of_some opened

end Reader

namespace Gap

variable (gap : Gap)

/-- What is held at the two sides of a place looks alike and ends at the same place. -/
def Alike {Value View : Type} (view : Value → View) (start place : Nat)
    (held other : Option (Taken Value)) : Prop :=
  Option.Rel (fun taken second => view taken.value = view second.value ∧
    taken.misread = second.misread ∧ 0 < taken.length ∧ 0 < second.length ∧
    gap.Place (start + taken.length) (place + second.length)) held other

/-- All parts that are held at the two sides of a place look alike. -/
structure Heads (start place : Nat) (parts others : List Parts) : Prop where
  hint : gap.Alike (fun hint => hint.outline.bare) start place
    (Parts.first Parts.hint parts) (Parts.first Parts.hint others)
  unary : gap.Alike (fun value => value.outline.bare) start place
    (Parts.first Parts.unary parts) (Parts.first Parts.unary others)
  binary : gap.Alike (fun value => value.outline.bare) start place
    (Parts.first Parts.binary parts) (Parts.first Parts.binary others)
  ternary : gap.Alike (fun value => value.outline.bare) start place
    (Parts.first Parts.ternary parts) (Parts.first Parts.ternary others)
  expression : gap.Alike (fun value => value.outline.bare) start place
    (Parts.first Parts.expression parts) (Parts.first Parts.expression others)
  statement : gap.Alike (List.map fun statement => statement.outline.bare) start place
    (Parts.first Parts.statement parts) (Parts.first Parts.statement others)

/-- The parts at every place of the text with the white space. -/
def spacedParts : List Parts := Parts.table (Nested.ofText gap.spaced) {} 0 gap.spaced

/-- The parts at every place of the text with the comment. -/
def commentedParts : List Parts := Parts.table (Nested.ofText gap.commented) {} 0 gap.commented

/-- The cursors stand at the same place of the two texts, of which the site is known, and all parts
ahead of them look alike. -/
structure Related (site : Nat → Prop) (cursor other : Cursor) : Prop where
  within : cursor.Within (Nested.ofText gap.spaced) gap.spaced
  withinToo : other.Within (Nested.ofText gap.commented) gap.commented
  place : gap.Place cursor.offset other.offset
  misread : cursor.misread = other.misread
  site : site cursor.offset
  own : gap.Heads cursor.offset other.offset cursor.parts other.parts
  ahead : ∀ {start place}, cursor.offset < start → gap.Place start place →
    gap.Heads start place (gap.spacedParts.drop start) (gap.commentedParts.drop place)

/-- Cursors at the same place, wherever it is. -/
def Beside : Cursor → Cursor → Prop := gap.Related fun _ => True

variable {gap}

namespace Related

variable {site : Nat → Prop} {cursor other : Cursor}

theorem at_site {next : Nat → Prop} (related : gap.Related site cursor other)
    (there : next cursor.offset) : gap.Related next cursor other :=
  { related with site := there }

theorem beside (related : gap.Related site cursor other) : gap.Beside cursor other :=
  related.at_site trivial

theorem noted {misread : Bool} (related : gap.Related site cursor other) :
    gap.Related site { cursor with misread } { other with misread } where
  within := ⟨related.within.rest, related.within.span, related.within.parts⟩
  withinToo := ⟨related.withinToo.rest, related.withinToo.span, related.withinToo.parts⟩
  place := related.place
  misread := rfl
  site := related.site
  own := related.own
  ahead := related.ahead

theorem inside (related : gap.Related site cursor other) {length size : Nat}
    (place : gap.Place (cursor.offset + length) (other.offset + size)) :
    length ≤ cursor.rest.length ∧ size ≤ other.rest.length := by
  obtain ⟨bound, boundToo⟩ := place.bounds
  rw [related.within.length_rest, related.withinToo.length_rest]
  omega

theorem advance {next : Nat → Prop} (related : gap.Related site cursor other) {length size : Nat}
    (moved : 0 < length) (movedToo : 0 < size)
    (place : gap.Place (cursor.offset + length) (other.offset + size))
    (there : next (cursor.offset + length)) :
    gap.Related next (cursor.advance length) (other.advance size) := by
  obtain ⟨inside, insideToo⟩ := related.inside place
  have misread := cursor.misread_advance length
  have misreadToo := other.misread_advance size
  obtain ⟨noted, stands⟩ := related.within.advance inside moved
  obtain ⟨notedToo, standsToo⟩ := related.withinToo.advance insideToo movedToo
  rw [stands, standsToo]
  rw [stands] at misread
  rw [standsToo] at misreadToo
  exact {
    within := Cursor.within_onTable _ _
    withinToo := Cursor.within_onTable _ _
    place
    misread := misread.trans (related.misread.trans misreadToo.symm)
    site := there
    own := related.ahead (Nat.lt_add_of_pos_right moved) place
    ahead := fun further => related.ahead (Nat.lt_of_le_of_lt (Nat.le_add_right _ _) further) }

theorem shorter (related : gap.Related site cursor other) {length size : Nat} (moved : 0 < length)
    (movedToo : 0 < size) (place : gap.Place (cursor.offset + length) (other.offset + size)) :
    (cursor.advance length).rest.length < cursor.rest.length ∧
      (other.advance size).rest.length < other.rest.length := by
  obtain ⟨inside, insideToo⟩ := related.inside place
  have passes := congrArg List.length (Cursor.passes_advance length cursor).rest
  have passesToo := congrArg List.length (Cursor.passes_advance size other).rest
  rw [List.length_append, List.length_take, Nat.min_eq_left inside] at passes
  rw [List.length_append, List.length_take, Nat.min_eq_left insideToo] at passesToo
  omega

end Related

section Tokens

variable {site : Nat → Prop}

theorem short (cursor other : Cursor) (related : gap.Related site cursor other) :
    cursor.rest.length < (Nested.ofText gap.spaced).limit ∧
      other.rest.length < (Nested.ofText gap.commented).limit := by
  rw [related.within.length_rest, related.withinToo.length_rest]
  change _ < gap.spaced.length + 1 ∧ _ < gap.commented.length + 1
  omega

/-- A rule that takes the same at every place of both texts leads from sites of one kind to sites of
another kind. -/
theorem lexeme_rel {next : Nat → Prop} {rule : Lexeme} (steps : gap.Steps rule)
    (leads : ∀ {start place length}, gap.Place start place → site start →
      rule (gap.spaced.drop start) = some length → next (start + length))
    {cursor other : Cursor} (related : gap.Related site cursor other) :
    Option.Rel (fun found second => found.1 = second.1 ∧ gap.Related next found.2 second.2 ∧
      (True → found.2.rest.length < cursor.rest.length ∧
        second.2.rest.length < other.rest.length))
      ((lexeme rule).run cursor) ((lexeme rule).run other) := by
  obtain ⟨same, further⟩ := steps related.place
  rw [← related.within.rest, ← related.withinToo.rest] at same further
  simp only [lexeme, ← same]
  cases taken : rule cursor.rest with
  | none => exact .none
  | some length =>
      obtain ⟨moved, text, place⟩ := further length taken
      rw [related.within.rest] at taken
      have there := leads related.place related.site taken
      exact .some ⟨congrArg String.ofList text, related.advance moved moved place there,
        fun _ => related.shorter moved moved place⟩

theorem lexeme_twins {rule : Lexeme} (steps : gap.Steps rule)
    (stays : ∀ {start place length}, gap.Place start place → site start →
      rule (gap.spaced.drop start) = some length → site (start + length)) :
    Twins True (gap.Related site) id (lexeme rule) (lexeme rule) :=
  fun _ _ related => lexeme_rel steps stays related

theorem skip_twins (stays : ∀ {start place}, gap.Place start place → site start →
      site (start + Lexeme.trivia (gap.spaced.drop start))) :
    Twins False (gap.Related site) (fun _ => ()) Reader.skip Reader.skip := by
  intro cursor other related
  obtain ⟨place, both⟩ := related.place.trivia
  have there := stays related.place related.site
  rw [← related.within.rest] at place both there
  rw [← related.withinToo.rest] at place both
  refine .some ⟨rfl, ?_, False.elim⟩
  by_cases still : Lexeme.trivia cursor.rest = 0
  · rw [still, both.mp still]
    exact related
  · have still' := mt both.mpr still
    exact related.advance (Nat.pos_of_ne_zero still) (Nat.pos_of_ne_zero still') place there

/-- A part that is held at both sides of the places. -/
theorem part_twins {Value View : Type} {view : Value → View}
    {select : Parts → Thunk (Option (Taken Value))}
    (alike : ∀ {cursor other}, gap.Beside cursor other → gap.Alike view cursor.offset other.offset
      (Parts.first select cursor.parts) (Parts.first select other.parts)) :
    Twins True gap.Beside view (part select) (part select) := by
  intro cursor other related
  have both := alike related
  rw [Parts.run_part, Parts.run_part]
  generalize Parts.first select cursor.parts = held at both ⊢
  generalize Parts.first select other.parts = second at both ⊢
  cases both with
  | none => exact .none
  | some facts =>
      obtain ⟨same, misread, moved, movedToo, place⟩ := facts
      refine .some ⟨same, ?_, fun _ => related.shorter moved movedToo place⟩
      have next : gap.Beside _ _ := related.advance moved movedToo place trivial
      simp only [Cursor.pass, misread, related.misread]
      exact next.noted

end Tokens

/-! Tags -/

section Tags

variable {cursor other : Cursor}

/-- Text outside the tags and the opening tag behind it, where both texts have the same. -/
theorem outside_runs {html : Nat} {tag : Option Nat}
    (same : Lexeme.SameOutside cursor.rest other.rest html tag) :
    ∃ outside opened second openedToo,
      (perhaps inlineHtml).run cursor = some (outside, cursor.advance html) ∧
      (perhaps openingTag).run (cursor.advance html) =
        some (opened, cursor.advance (html + tag.getD 0)) ∧
      (perhaps inlineHtml).run other = some (second, other.advance html) ∧
      (perhaps openingTag).run (other.advance html) =
        some (openedToo, other.advance (html + tag.getD 0)) ∧
      (outside.toList ++ opened.toList).map (fun statement => statement.outline.bare) =
        (second.toList ++ openedToo.toList).map fun statement => statement.outline.bare := by
  have front : cursor.rest.take html = other.rest.take html := by
    have taken := congrArg (List.take html) same.taken
    rwa [List.take_take, List.take_take, Nat.min_eq_left (Nat.le_add_right _ _)] at taken
  have back : (cursor.rest.drop html).take (tag.getD 0) = (other.rest.drop html).take (tag.getD 0) := by
    have dropped := congrArg (List.drop html) same.taken
    rwa [List.drop_take, List.drop_take, Nat.add_sub_cancel_left] at dropped
  have tagged : ∀ {cursor : Cursor}, Lexeme.openingTag (cursor.rest.drop html) = tag →
      (perhaps openingTag).run (cursor.advance html) =
        some (tag.map fun length => .openingTag (cursor.advance html).span
          (lowerAscii (String.ofList ((cursor.rest.drop html).take length))),
          cursor.advance (html + tag.getD 0)) := by
    intro cursor opening
    rw [← Cursor.rest_advance] at opening ⊢
    rw [← Cursor.advance_advance]
    exact run_openingTag opening
  refine ⟨_, _, _, _, run_inlineHtml same.length, tagged same.opening,
    run_inlineHtml same.lengthToo, tagged same.openingToo, ?_⟩
  rw [front, List.map_append, List.map_append]
  congr 1
  · split <;> simp [Stmt.outline]
  · cases tag with
    | none => rfl
    | some length =>
        rw [Option.getD_some] at back
        simp [Stmt.outline, back]

theorem closingTag_twins : Twins True gap.Beside
    (List.map fun statement => statement.outline.bare) closingTag closingTag := by
  intro cursor other related
  have solid : ∀ letter ∈ "?>".toList, letter ∉ Lexeme.breaks := by decide
  have both := related.place.settled (Lexeme.settled_mark solid)
  rw [← related.within.rest, ← related.withinToo.rest] at both
  cases marked : Lexeme.mark "?>".toList cursor.rest with
  | none =>
      rw [marked, Option.isSome_none] at both
      have markedToo : Lexeme.mark "?>".toList other.rest = none := by
        simpa using both.symm
      exact Twins.of_fails (.here (.bind (.token marked))) (.here (.bind (.token markedToo)))
  | some length =>
      rw [marked, Option.isSome_some] at both
      obtain ⟨size, markedToo⟩ := Option.isSome_iff_exists.mp both.symm
      obtain rfl : size = length :=
        (Lexeme.mark_length markedToo).1.trans (Lexeme.mark_length marked).1.symm
      have moved : 0 < size := by
        rw [(Lexeme.mark_length marked).1]
        decide
      have found := marked
      rw [related.within.rest] at found
      obtain ⟨html, tag, outside, place⟩ := related.place.closing found
      rw [← related.within.rest, ← related.withinToo.rest, ← Cursor.rest_advance,
        ← Cursor.rest_advance] at outside
      obtain ⟨_, _, _, _, read, opened, readToo, openedToo, same⟩ := outside_runs outside
      rw [run_closingTag marked read opened, run_closingTag markedToo readToo openedToo,
        Cursor.advance_advance, Cursor.advance_advance]
      have further : 0 < size + (html + tag.getD 0) := by omega
      refine .some ⟨?_, related.advance further further place trivial,
        fun _ => related.shorter further further place⟩
      simpa [Stmt.outline] using same

end Tags

theorem noteMisread_twins : Twins False gap.Beside (fun _ => ()) noteMisread noteMisread :=
  fun _ _ related => .some ⟨rfl, related.noted, False.elim⟩

theorem twinned : (Nested.ofText gap.spaced).Twinned gap.Beside (Nested.ofText gap.commented) where
  short := short
  settled settled _ _ related := by
    rw [related.within.rest, related.withinToo.rest]
    exact related.place.settled settled
  neededNames := noteMisread_twins.neededName
    (lexeme_twins (steps_kept Lexeme.kept_name) fun _ _ _ => trivial)
  instanceOfs := noteMisread_twins.instanceOfWord
    (lexeme_twins (steps_kept (Lexeme.kept_keyword (by decide))) fun _ _ _ => trivial)
  skips := skip_twins fun _ _ => trivial
  kept kept := lexeme_twins (steps_kept kept) fun _ _ _ => trivial
  spaced known := lexeme_twins (steps_spaced known) fun _ _ _ => trivial
  closingTags := closingTag_twins
  stuck {cursor other} related stuck := by
    have settled : Lexeme.Settled Lexeme.stuck := fun ahead _ => Lexeme.stuck_append ahead
    have same := related.place.settled settled
    rw [← related.within.rest, ← related.withinToo.rest] at same
    exact ⟨operation_fails related.within stuck, operation_fails related.withinToo (same ▸ stuck)⟩
  hints := part_twins fun related => related.own.hint
  unaries := part_twins fun related => related.own.unary
  binaries := part_twins fun related => related.own.binary
  ternaries := part_twins fun related => related.own.ternary
  expressions := part_twins fun related => related.own.expression
  statements := part_twins fun related => related.own.statement

/-! Class bodies -/

section Classes

variable {Value View : Type} {view : Value → View} {onward : Prop}

/-- Twins of which the first always ends at a site of a kind. -/
theorem rel_of_halts {site : Nat → Prop} {reader other : Reader Value}
    (twins : Twins onward gap.Beside view reader other) (halts : reader.Halts gap.spaced site)
    {cursor place : Cursor} (related : gap.Beside cursor place) :
    Option.Rel (fun found second => view found.1 = view second.1 ∧
      gap.Related site found.2 second.2 ∧ (onward → found.2.rest.length < cursor.rest.length ∧
        second.2.rest.length < place.rest.length)) (reader.run cursor) (other.run place) := by
  rcases twins.cases related with ⟨fails, failsToo⟩ |
    ⟨_, _, _, _, read, readToo, same, kept, moves⟩
  · exact Twins.of_fails fails failsToo
  · rw [read, readToo]
    exact .some ⟨same, kept.at_site (halts related.within read), moves⟩

theorem twins_of_halts {site : Nat → Prop} {reader other : Reader Value}
    (twins : Twins onward gap.Beside view reader other) (halts : reader.Halts gap.spaced site) :
    Twins onward (gap.Related site) view reader other :=
  fun _ _ related => rel_of_halts twins halts related.beside

theorem skip_parted :
    Twins False (gap.Related gap.Parted) (fun _ => ()) Reader.skip Reader.skip :=
  skip_twins fun _ => parted_trivia

theorem sign_parted {rule : Lexeme} {last : Char} (kept : rule.Kept) (ends : rule.Ends last)
    (dark : Lexeme.isWordPart last = false) :
    Twins True (gap.Related gap.Parted) (fun _ => ()) (token rule) (token rule) :=
  (lexeme_twins (steps_kept kept) fun _ _ => Lexeme.parted_of_ends ends dark).token

theorem attributes_parted :
    Twins False (gap.Related gap.Parted) (fun _ => ())
      (attributes (Nested.ofText gap.spaced).limit)
      (attributes (Nested.ofText gap.commented).limit) := by
  have group : Twins True (gap.Related gap.Parted) (fun _ => ()) (token Lexeme.attributeGroup)
      (token Lexeme.attributeGroup) :=
    sign_parted Lexeme.kept_attributeGroup (.followedBy (Lexeme.ends_attributeRest 1)) (by decide)
  exact ((group.pass skip_parted).many short).discard

theorem mark_halts {text : String} {last : Char} (ends : text.toList.getLast? = some last)
    (dark : Lexeme.isWordPart last = false) : (mark text).Halts gap.spaced gap.Parted :=
  .token (Lexeme.bounded_mark _) (Lexeme.parted_of_ends (.mark ends) dark)

theorem terminator_halts : terminator.Halts gap.spaced gap.Parted := by
  refine .orElse (mark_halts rfl (by decide)) ?_
  intro cursor value later within read
  simp only [ahead] at read
  split at read
  · rename_i found marked
    cases read
    refine Lexeme.parted_of_ahead ?_
    simp only [mark, token] at marked
    split at marked
    · rename_i length taken
      rw [← within.rest, Lexeme.mark_eq_some taken]
      rfl
    · cases marked
  · cases read

theorem block_halts {nested : Nested} : (block nested).Halts gap.spaced gap.Parted :=
  .last fun _ => .last fun _ => .last fun _ => .last fun _ => .map (mark_halts rfl (by decide))

theorem enumCase_halts {nested : Nested} : (enumCase nested).Halts gap.spaced gap.Parted :=
  .last fun _ => .last fun _ => .last fun _ => .last fun _ => .last fun _ => .last fun _ =>
    .map terminator_halts

theorem classConstant_halts {nested : Nested} : (classConstant nested).Halts gap.spaced gap.Parted :=
  .last fun _ => .last fun _ => .last fun _ => .last fun _ => .last fun _ => .last fun _ =>
    .last fun _ => .map terminator_halts

theorem method_halts {nested : Nested} : (method nested).Halts gap.spaced gap.Parted := by
  have body : ((some <$> block nested) <|> (do terminator; return none)).Halts gap.spaced
      gap.Parted := .orElse (.map block_halts) (.map terminator_halts)
  exact .last fun _ => .last fun _ => .last fun _ => .last fun _ => .last fun _ => .last fun _ =>
    .last fun _ => .last fun _ => .last fun _ => .last fun _ => .map body

theorem property_halts {nested : Nested} : (property nested).Halts gap.spaced gap.Parted := by
  unfold property
  refine .last fun _ => .last fun modifiers => ?_
  dsimp only
  split
  · intro cursor value later within read
    cases read
  · exact .last fun _ => .last fun _ => .last fun _ => .map terminator_halts

/-- The end of a trait use: braces with adaptations, or the end of a statement. -/
theorem adaptations_rel {cursor other : Cursor} (related : gap.Related gap.BracesClosed cursor other) :
    Option.Rel (fun found second => () = () ∧ gap.Related gap.Parted found.2 second.2 ∧
      (False → found.2.rest.length < cursor.rest.length ∧
        second.2.rest.length < other.rest.length))
      ((token Lexeme.traitAdaptations <|> terminator).run cursor)
      ((token Lexeme.traitAdaptations <|> terminator).run other) := by
  obtain ⟨same, further⟩ := related.place.adaptations related.site
  rw [← related.within.rest] at same further
  rw [← related.withinToo.rest] at same
  cases taken : Lexeme.traitAdaptations cursor.rest with
  | none =>
      have fails : (token Lexeme.traitAdaptations).Fails cursor := .token taken
      have failsToo : (token Lexeme.traitAdaptations).Fails other := .token (same ▸ taken)
      rw [fails.run_orElse, failsToo.run_orElse]
      exact rel_of_halts (terminator_twins twinned) terminator_halts related.beside
  | some length =>
      obtain ⟨moved, place⟩ := further length taken
      have read : (token Lexeme.traitAdaptations).run cursor = some ((), cursor.advance length) := by
        simp only [token, taken]
      have readToo : (token Lexeme.traitAdaptations).run other = some ((), other.advance length) := by
        simp only [token, ← same, taken]
      rw [run_orElse_of_some read, run_orElse_of_some readToo]
      refine .some ⟨rfl, related.advance moved moved place ?_, False.elim⟩
      have ends : Lexeme.traitAdaptations.Ends '\x7d' := .followedBy (.followedBy (.one _))
      rw [related.within.rest] at taken
      exact Lexeme.parted_of_ends ends (by decide) taken

theorem traitUse_parted :
    Twins True (gap.Related gap.Parted) (fun member => (outlineMember member).bare)
      (traitUse (Nested.ofText gap.spaced)) (traitUse (Nested.ofText gap.commented)) := by
  have use : (Lexeme.keyword "use").Kept := Lexeme.kept_keyword (by decide)
  have shortens : ∀ nested, (traitUse nested).Shortens :=
    fun nested => .last fun _ => .first (.token use.moves)
  have skips : Twins False (gap.Related gap.BracesClosed) (fun _ => ()) skip skip :=
    skip_twins fun here closed => bracesClosed_trivia here closed
  have names : Twins True (gap.Related gap.BracesClosed) id (lexeme Lexeme.name)
      (lexeme Lexeme.name) :=
    lexeme_twins (steps_kept Lexeme.kept_name)
      (bracesClosed_kept Lexeme.kept_name Lexeme.behindNames_name)
  have comma : Twins False (gap.Related gap.BracesClosed) (fun _ => ()) (mark ",") (mark ",") := by
    have kept : (Lexeme.mark ",".toList).Kept := Lexeme.kept_closeMark (by decide)
    have twins : Twins True (gap.Related gap.BracesClosed) id (lexeme (Lexeme.mark ",".toList))
        (lexeme (Lexeme.mark ",".toList)) :=
      lexeme_twins (steps_kept kept) (bracesClosed_kept kept Lexeme.behindNames_comma)
    exact twins.token.weaken False.elim
  have list : Twins False (gap.Related gap.BracesClosed) id
      (nameList (Nested.ofText gap.spaced).limit) (nameList (Nested.ofText gap.commented).limit) :=
    names.nameList skips comma short
  refine Twins.forward (.here fun span place cursor other related => ?_) (shortens _) (shortens _)
  have word : Option.Rel (fun found second => gap.Related gap.BracesClosed found.2 second.2)
      ((keyword "use").run cursor) ((keyword "use").run other) :=
    rel_token (lexeme_rel (steps_kept use) bracesClosed_use related) fun facts => facts.2.1
  refine rel_bind word fun _ _ _ _ _ _ related => ?_
  refine rel_bind (skips related) fun _ _ _ _ _ _ facts => ?_
  refine rel_bind (list facts.2.1) fun names _ second _ _ _ facts => ?_
  obtain rfl : names = second := facts.1
  refine rel_bind (skips facts.2.1) fun _ _ _ _ _ _ facts => ?_
  refine rel_bind (adaptations_rel facts.2.1) fun _ _ _ _ _ _ facts => ?_
  exact .some ⟨by simp [outlineMember], facts.2.1, False.elim⟩

theorem member_parted :
    Twins True (gap.Related gap.Parted) (fun member => (outlineMember member).bare)
      (member (Nested.ofText gap.spaced)) (member (Nested.ofText gap.commented)) := by
  refine attributes_parted.beyond (traitUse_parted.orElse ?_)
  refine (twins_of_halts (enumCase_twins twinned) enumCase_halts).orElse ?_
  refine (twins_of_halts (classConstant_twins twinned) classConstant_halts).orElse ?_
  refine (twins_of_halts (method_twins twinned) method_halts).orElse ?_
  exact twins_of_halts (property_twins twinned) property_halts

theorem classBody_twins :
    Twins True gap.Beside (List.map fun member => (outlineMember member).bare)
      (classBody (Nested.ofText gap.spaced)) (classBody (Nested.ofText gap.commented)) := by
  have opening : (Lexeme.mark "\x7b".toList).Kept := Lexeme.kept_closeMark (by decide)
  have closing : Twins False (gap.Related gap.Parted) (fun _ => ()) (mark "\x7d") (mark "\x7d") :=
    (sign_parted (Lexeme.kept_closeMark (by decide)) (.mark rfl) (by decide)).weaken False.elim
  have item : Twins True (gap.Related gap.Parted)
      (fun member : Member Expr Stmt => (outlineMember member).bare)
      (do let member ← member (Nested.ofText gap.spaced); skip; return member)
      (do let member ← member (Nested.ofText gap.commented); skip; return member) :=
    member_parted.bind fun _ _ same => skip_parted.beyond (.give same)
  have shortens : ∀ nested, (classBody nested).Shortens := fun nested => .first (.token opening.moves)
  refine Twins.forward (fun cursor other related => ?_) (shortens _) (shortens _)
  have brace : Option.Rel (fun found second => gap.Related gap.Parted found.2 second.2)
      ((mark "\x7b").run cursor) ((mark "\x7b").run other) :=
    rel_token (lexeme_rel (steps_kept opening)
      (fun _ _ => Lexeme.parted_of_ends (.mark rfl) (by decide)) related) fun facts => facts.2.1
  refine rel_bind brace fun _ _ _ _ _ _ related => ?_
  refine rel_bind (skip_parted related) fun _ _ _ _ _ _ facts => ?_
  refine rel_bind ((item.many short) facts.2.1) fun members _ others _ _ _ facts => ?_
  have same := facts.1
  refine rel_bind (closing facts.2.1) fun _ _ _ _ _ _ facts => ?_
  exact .some ⟨same, facts.2.1.beside, False.elim⟩

end Classes

theorem classTwinned :
    (Nested.ofText gap.spaced).ClassTwinned gap.Beside (Nested.ofText gap.commented) :=
  ⟨twinned, classBody_twins⟩

/-! All places -/

/-- What twins take at related cursors is alike. -/
theorem alike_taken {Value View : Type} {view : Value → View} {reader second : Reader Value}
    (twins : Twins True gap.Beside view reader second) {cursor other : Cursor}
    (related : gap.Beside cursor other) :
    gap.Alike view cursor.offset other.offset (reader.taken cursor) (second.taken other) := by
  rcases twins.cases related with ⟨fails, failsToo⟩ |
    ⟨value, later, found, behind, read, readToo, same, kept, moves⟩
  · simp only [taken, show reader.run cursor = none from fails,
      show second.run other = none from failsToo]
    exact .none
  · obtain ⟨shorter, shorterToo⟩ := moves trivial
    rw [kept.within.length_rest, related.within.length_rest] at shorter
    rw [kept.withinToo.length_rest, related.withinToo.length_rest] at shorterToo
    simp only [taken, read, readToo]
    refine .some ⟨same, kept.misread, ?_, ?_, ?_⟩
    · change 0 < later.offset - cursor.offset
      omega
    · change 0 < behind.offset - other.offset
      omega
    · change gap.Place (cursor.offset + (later.offset - cursor.offset))
        (other.offset + (behind.offset - other.offset))
      rw [Nat.add_sub_cancel' (by omega), Nat.add_sub_cancel' (by omega)]
      exact kept.place

/-- Where nothing is held at both sides, all that is held looks alike. -/
theorem heads_fresh {start place : Nat} {parts others : List Parts}
    (fresh : parts = [] ∨ ∃ rest, parts = Parts.nothing :: rest)
    (freshToo : others = [] ∨ ∃ rest, others = Parts.nothing :: rest) :
    gap.Heads start place parts others := by
  rcases fresh with rfl | ⟨rest, rfl⟩ <;> rcases freshToo with rfl | ⟨restToo, rfl⟩ <;>
    exact ⟨.none, .none, .none, .none, .none, .none⟩

/-- The parts at the same place of both texts look alike, since those at all places behind it do. -/
theorem heads {start place : Nat} (here : gap.Place start place) :
    gap.Heads start place (gap.spacedParts.drop start) (gap.commentedParts.drop place) := by
  induction size : gap.spaced.length - start using Nat.strongRecOn generalizing start place with
  | ind size ih =>
      obtain ⟨inside, insideToo⟩ := here.bounds
      obtain ⟨cursor, within, rfl, clean, fresh, held⟩ :=
        Parts.exists_drop_table (Nested.ofText gap.spaced) inside
      obtain ⟨other, withinToo, rfl, cleanToo, freshToo, heldToo⟩ :=
        Parts.exists_drop_table (Nested.ofText gap.commented) insideToo
      have related : gap.Beside cursor other := {
        within
        withinToo
        place := here
        misread := clean.trans cleanToo.symm
        site := trivial
        own := heads_fresh fresh freshToo
        ahead := fun further there => ih _ (by have := there.bounds; omega) there rfl }
      rw [spacedParts, commentedParts, held, heldToo]
      exact {
        hint := alike_taken (hint_twins twinned) related
        unary := alike_taken (unary_twins classTwinned) related
        binary := alike_taken (binary_twins classTwinned) related
        ternary := alike_taken (ternary_twins classTwinned) related
        expression := alike_taken (expression_twins classTwinned) related
        statement := alike_taken (statement_twins classTwinned) related }

theorem beside_onTable {start place : Nat} (here : gap.Place start place) (misread : Bool) :
    gap.Beside (Cursor.onTable (Nested.ofText gap.spaced) gap.spaced start misread)
      (Cursor.onTable (Nested.ofText gap.commented) gap.commented place misread) where
  within := Cursor.within_onTable _ _
  withinToo := Cursor.within_onTable _ _
  place := here
  misread := rfl
  site := trivial
  own := heads here
  ahead _ there := heads there

/-! Programs -/

variable (gap)

theorem program_rel :
    Option.Rel (fun found second => found.1.map (fun statement => statement.outline.bare) =
        second.1.map (fun statement => statement.outline.bare) ∧ gap.Beside found.2 second.2)
      ((program (Nested.ofText gap.spaced)).run (Cursor.ofText gap.spaced))
      ((program (Nested.ofText gap.commented)).run (Cursor.ofText gap.commented)) := by
  obtain ⟨html, tag, outside, inside, whole⟩ :=
    Lexeme.sameOutside_code gap.pieces gap.breaks_space gap.breaks_comment
  have outside : Lexeme.SameOutside (Cursor.ofText gap.spaced).rest
    (Cursor.ofText gap.commented).rest html (some tag) := outside
  obtain ⟨_, _, _, _, read, opened, readToo, openedToo, front⟩ := outside_runs outside
  have reached : ∀ {text : List Char}, html + tag ≤ text.length →
      (Cursor.ofText text).advance (html + tag) =
        Cursor.onTable (Nested.ofText text) text (html + tag) false := by
    intro text bound
    have start : (Cursor.ofText text).StandsAt text 0 := ⟨false, rfl⟩
    obtain ⟨misread, stands⟩ := start.advance bound
    have clean := Cursor.misread_advance (html + tag) (Cursor.ofText text)
    rw [stands] at clean
    obtain rfl : misread = false := clean
    rwa [Nat.zero_add] at stands
  have place : gap.Place (html + tag) (html + tag) := .ahead inside whole
  have related := beside_onTable place false
  rw [Option.getD_some, reached place.bounds.1] at opened
  rw [Option.getD_some, reached place.bounds.2] at openedToo
  rw [program, program, run_bind_of_some read, run_bind_of_some readToo, run_bind_of_some opened,
    run_bind_of_some openedToo]
  refine rel_bind (twinned.skips related) fun _ _ _ _ _ _ facts => ?_
  refine rel_bind (statementList_twins twinned facts.2.1) fun _ _ _ _ _ _ facts => ?_
  obtain ⟨same, kept, -⟩ := facts
  refine .some ⟨?_, kept⟩
  simp only [List.map_append] at front same ⊢
  rw [front, same]

/-- A comment may stand in place of white space: a text is a program with the one if and only if it is
one with the other, and its tree is the same up to places in the text and the texts of selectors in
braces. -/
theorem parse_commented :
    (parse (String.ofList gap.spaced)).toOption.map
        (List.map fun statement => statement.outline.bare) =
      (parse (String.ofList gap.commented)).toOption.map
        (List.map fun statement => statement.outline.bare) := by
  have both := program_rel gap
  simp only [Nested.ofText, Cursor.ofText] at both
  simp only [parse, String.toList_ofList]
  generalize (program _).run (Cursor.start gap.spaced _) = first at both ⊢
  generalize (program _).run (Cursor.start gap.commented _) = second at both ⊢
  cases both with
  | none => rfl
  | @some found other facts =>
      obtain ⟨same, related⟩ := facts
      have empty : found.2.rest.isEmpty = other.2.rest.isEmpty := by
        rw [related.within.rest, related.withinToo.rest]
        exact related.place.isEmpty
      have misread := related.misread
      dsimp only
      rw [empty, misread]
      split
      · rfl
      split
      · rfl
      · exact congrArg some same

/-- A gap in an array, behind a class name that ends like the word `use` and behind an adapted
trait. -/
def betweenItems : Gap where
  before := "<?php class Reuse \x7b use A \x7b\x7d var $d = [1,".toList
  space := ['\n', ' ']
  body := " two */".toList
  after := "2]; \x7d".toList
  pieces := by decide +kernel
  white := by decide
  ascii := ⟨'\n', rfl, by decide⟩
  closed := by decide +kernel
  apart := by decide +kernel
  adapted := by decide +kernel

theorem parse_commented_betweenItems :
    (parse "<?php class Reuse \x7b use A \x7b\x7d var $d = [1,\n 2]; \x7d").toOption.isSome = true ∧
    (parse "<?php class Reuse \x7b use A \x7b\x7d var $d = [1,\n 2]; \x7d").toOption.map
        (List.map fun statement => statement.outline.bare) =
      (parse "<?php class Reuse \x7b use A \x7b\x7d var $d = [1,/* two */2]; \x7d").toOption.map
        (List.map fun statement => statement.outline.bare) := by
  have spaced : String.ofList betweenItems.spaced =
    "<?php class Reuse \x7b use A \x7b\x7d var $d = [1,\n 2]; \x7d" := rfl
  have commented : String.ofList betweenItems.commented =
    "<?php class Reuse \x7b use A \x7b\x7d var $d = [1,/* two */2]; \x7d" := rfl
  have same := parse_commented betweenItems
  rw [spaced, commented] at same
  exact ⟨rfl, same⟩

/-- The word `enum` looks for white space by itself, and does not find the comment. -/
example : (parse "<?php enum E \x7b\x7d").toOption.isSome = true ∧
    (parse "<?php enum/* */E \x7b\x7d").toOption.isSome = false := ⟨rfl, rfl⟩

end Gap

end PhpAudit
