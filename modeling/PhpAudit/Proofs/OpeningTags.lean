import PhpAudit.Proofs.LineIndexing
import PhpAudit.Proofs.NamespaceBodies
import PhpAudit.Proofs.RuleSelection

/-!
The first opening tag of a text. The text outside the tags goes as far as the first mark of a tag, and
a program begins with the tag that stands there. So the check of the opening tag can be told from the
text: from the place of the first mark, and from the first line.
-/

namespace PhpAudit

/-- The mark of an opening tag stands at an offset of the text. -/
def TagAt (text : List Char) (offset : Nat) : Prop := ['<', '?'] <+: text.drop offset

instance (text : List Char) (offset : Nat) : Decidable (TagAt text offset) :=
  inferInstanceAs (Decidable (['<', '?'] <+: text.drop offset))

theorem TagAt.offset_lt {text : List Char} {offset : Nat} (tag : TagAt text offset) :
    offset < text.length := by
  have size := tag.length_le
  simp only [List.length_cons, List.length_nil, List.length_drop] at size
  omega

namespace Lexeme

theorem not_tagAt_of_lt {text : List Char} {offset : Nat} (inside : offset < htmlLength text) :
    ¬ TagAt text offset := by
  induction text generalizing offset with
  | nil => cases inside
  | cons character rest ih =>
      rw [htmlLength] at inside
      split at inside
      · cases inside
      · rename_i other
        cases offset with
        | succ before => exact ih (Nat.lt_of_succ_lt_succ inside)
        | zero =>
            rintro ⟨behind, same⟩
            apply other
            rw [List.drop_zero] at same
            cases same
            rfl

theorem tagAt_htmlLength {text : List Char} (inside : htmlLength text < text.length) :
    TagAt text (htmlLength text) := by
  induction text with
  | nil => cases inside
  | cons character rest ih =>
      rw [htmlLength] at inside ⊢
      split
      · rename_i tag
        simp only [Bool.and_eq_true, beq_iff_eq] at tag
        obtain ⟨rfl, ahead⟩ := tag
        obtain ⟨more, rfl⟩ := List.head?_eq_some_iff.mp ahead
        exact ⟨more, rfl⟩
      · rename_i other
        rw [if_neg other] at inside
        exact ih (Nat.lt_of_succ_lt_succ inside)

/-- The text outside the tags ends at the first mark of a tag. -/
theorem htmlLength_eq {text : List Char} {offset : Nat} (tag : TagAt text offset)
    (first : ∀ earlier < offset, ¬ TagAt text earlier) : htmlLength text = offset := by
  rcases Nat.lt_trichotomy (htmlLength text) offset with before | same | behind
  · exact absurd (tagAt_htmlLength (Nat.lt_trans before tag.offset_lt)) (first _ before)
  · exact same
  · exact absurd tag (not_tagAt_of_lt behind)

theorem htmlLength_eq_length {text : List Char} (none : ∀ offset, ¬ TagAt text offset) :
    htmlLength text = text.length :=
  Nat.le_antisymm (htmlLength_le text) <|
    Nat.le_of_not_lt fun inside => none _ (tagAt_htmlLength inside)

theorem exists_openingTag {text : List Char} (tag : ['<', '?'] <+: text) :
    ∃ length, openingTag text = some length := by
  obtain ⟨rest, rfl⟩ := tag
  have trailing : ∃ length, perhaps (either (keyword "php") (one (· == '='))) rest = some length := by
    unfold perhaps
    split
    · exact ⟨_, rfl⟩
    · exact ⟨_, rfl⟩
  obtain ⟨length, found⟩ := trailing
  exact ⟨2 + length, by simp [openingTag, followedBy, mark, found]⟩

end Lexeme

namespace Reader

variable {text : List Char} {cursor later : Cursor}

/-- No statement stands at the end of a text. -/
theorem statementList_at_end {statements : List Stmt} (on : cursor.OnText text)
    (ended : cursor.rest = [])
    (read : (statementList (Nested.ofText text)).run cursor = some (statements, later)) :
    statements = [] := by
  have fails : (Nested.ofText text).statement.Fails cursor := by
    rcases (Follows.heldStatement on.told).cases with ⟨fails, _⟩ | ⟨_, _, passed, _, _, taken⟩
    · exact fails
    · have positive := Form.length_pos (by decide) taken
      have bound := taken.length_le
      rw [ended, List.length_nil] at bound
      omega
  obtain ⟨groups, _, rounds, given⟩ := run_bind read
  rw [Fails.many (.bind fails)] at rounds
  cases rounds
  cases given
  rfl

/-- The first opening tag of a program stands where the text outside the tags ends. -/
theorem program_firstTag {statements : List Stmt}
    (read : (program (Nested.ofText text)).run (Cursor.ofText text) = some (statements, later)) :
    statements.findSome? openingTagSpan =
      if Lexeme.htmlLength text < text.length then some (spanAt text (Lexeme.htmlLength text))
      else none := by
  obtain ⟨html, place, htmlRead, read⟩ := run_bind read
  obtain ⟨tag, behind, tagRead, read⟩ := run_bind read
  obtain ⟨_, first, skipped, read⟩ := run_bind read
  obtain ⟨listed, last, listRead, given⟩ := run_bind read
  cases given
  have on : (Cursor.ofText text).OnText text := ⟨0, Nat.zero_le _, false, rfl⟩
  have toTag := on.reaches ((perhaps inlineHtml).moves htmlRead)
  have beyondTag := ((perhaps openingTag).moves tagRead).trans (skip.moves skipped)
  rw [run_inlineHtml rfl] at htmlRead
  obtain ⟨sameHtml, samePlace⟩ := Prod.mk.inj (Option.some.inj htmlRead)
  have outside : html.toList.findSome? openingTagSpan = none := by
    rw [← sameHtml]
    split <;> rfl
  have rest : place.rest = text.drop (Lexeme.htmlLength text) := by
    rw [← samePlace, Cursor.rest_advance]
    rfl
  have span : place.span = spanAt text (Lexeme.htmlLength text) := by
    have offset := Cursor.offset_advance (Lexeme.htmlLength_le (Cursor.ofText text).rest)
    rw [samePlace] at offset
    rw [← toTag.within.spanAt_offset toTag.offset_le, offset]
    exact congrArg (spanAt text) (Nat.zero_add _)
  rw [run_openingTag rfl] at tagRead
  obtain ⟨sameTag, -⟩ := Prod.mk.inj (Option.some.inj tagRead)
  rw [List.findSome?_append, List.findSome?_append, outside, Option.none_or]
  by_cases inside : Lexeme.htmlLength text < text.length
  · have mark : ['<', '?'] <+: place.rest := rest ▸ Lexeme.tagAt_htmlLength inside
    obtain ⟨length, opening⟩ := Lexeme.exists_openingTag mark
    rw [opening] at sameTag
    rw [if_pos inside, ← sameTag, ← span]
    rfl
  · have ended : place.rest = [] := by
      rw [rest]
      exact List.drop_of_length_le (Nat.le_of_not_lt inside)
    obtain ⟨passed, passes⟩ := beyondTag
    have nothing : first.rest = [] := (List.append_eq_nil_iff.mp (passes.rest.symm.trans ended)).2
    have noStatements := statementList_at_end (toTag.reaches ⟨passed, passes⟩) nothing listRead
    rw [ended] at sameTag
    rw [if_neg inside, ← sameTag, noStatements]
    rfl

end Reader

/-! The place of the tag -/

theorem one_lt_line_spanAt {text : List Char} {offset : Nat} :
    1 < (spanAt text offset).line ↔ '\n' ∈ text.take offset := by
  have line : (spanAt text offset).line = 1 + (text.take offset).count '\n' :=
    Span.line_after {} (text.take offset)
  rw [line, ← List.count_pos_iff]
  omega

theorem one_lt_column_spanAt {text : List Char} {offset : Nat} :
    1 < (spanAt text offset).column ↔ 0 < offset ∧ text[offset - 1]? ≠ some '\n' := by
  obtain ⟨start, line, span⟩ := LineIndex.exists_span_ofText text offset
  rw [LineIndex.span_ofText] at span
  rw [span, countedSpan]
  constructor
  · intro behind
    have later : start < offset := by
      change 1 < offset - start + 1 at behind
      omega
    exact ⟨by omega, line.unbroken (offset - 1) (by omega) (by omega)⟩
  · rintro ⟨positive, unbroken⟩
    have later : start ≠ offset := by
      rintro rfl
      rcases line.starts with rfl | feed
      · cases positive
      · exact unbroken feed
    have least := line.fromStart
    change 1 < offset - start + 1
    omega

/-! The check -/

/-- The first line of the text, without the white space around it, calls an interpreter. -/
def StartsScript (text : String) : Prop :=
  ∃ first ∈ (splitLines text).head?, ['#', '!'] <+: trim first.toList

theorem SourceFile.isScript_ofText (path text : String) :
    (ofText path text).1.isScript = true ↔ StartsScript text := by
  have lines : (ofText path text).1.lines = splitLines text := rfl
  rw [isScript, lines, StartsScript]
  cases splitLines text with
  | nil => simp
  | cons first rest =>
      constructor
      · intro taken
        exact ⟨first, rfl, List.prefix_iff_eq_take.mpr (beq_iff_eq.mp taken).symm⟩
      · rintro ⟨_, ⟨⟩, begins⟩
        exact beq_iff_eq.mpr (List.prefix_iff_eq_take.mp begins).symm

instance (text : String) : Decidable (StartsScript text) :=
  decidable_of_iff _ (SourceFile.isScript_ofText "" text)

namespace Audit

/-- What a configured audit of a text reports of its opening tag. -/
def tagViolations (configuration : Configuration) (path text : String) : List Violation :=
  ((prepare configuration).1.auditText path text).1.filter fun violation =>
    violation.rule == "E0001"

variable {configuration : Configuration} {path text : String} {statements : List Stmt}

theorem tagViolations_eq (selected : configuration.selects "E0001" = true) :
    tagViolations configuration path text =
      (misplacedTag (SourceFile.ofText path text).1).map
        ((SourceFile.ofText path text).1.violation "E0001") :=
  (prepare_violations_of_check configuration (SourceFile.ofText path text).1 .openingTag).trans
    (if_pos ⟨selected, rfl⟩)

theorem misplacedTag_ofText (parsed : parse text = .ok statements) (noScript : ¬ StartsScript text) :
    misplacedTag (SourceFile.ofText path text).1 =
      if Lexeme.htmlLength text.toList < text.toList.length then
        wrongTagLine (spanAt text.toList (Lexeme.htmlLength text.toList)) ++
          wrongTagColumn (spanAt text.toList (Lexeme.htmlLength text.toList))
      else [] := by
  obtain ⟨later, read, _⟩ := exists_run_of_parse parsed
  have found : (SourceFile.ofText path text).1.statements = statements := by
    simp [SourceFile.ofText, parsed]
  rw [misplacedTag, found, Reader.program_firstTag read,
    if_neg (mt (SourceFile.isScript_ofText path text).mp noScript)]
  by_cases inside : Lexeme.htmlLength text.toList < text.toList.length
  · rw [if_pos inside, if_pos inside]
  · rw [if_neg inside, if_neg inside]

/-- The check of the opening tag says nothing of a text without the mark of a tag or with a first line
that calls an interpreter. Of any other text it says, at the first mark and whatever follows it, that
the line is wrong if a line feed stands before the mark, and then that the column is wrong if
something other than a line feed stands directly before it. -/
theorem openingTag_violations (parsed : parse text = .ok statements)
    (selected : configuration.selects "E0001" = true) :
    ((∀ offset, ¬ TagAt text.toList offset) ∨ StartsScript text →
      tagViolations configuration path text = []) ∧
    ∀ offset, TagAt text.toList offset → (∀ earlier < offset, ¬ TagAt text.toList earlier) →
      ¬ StartsScript text →
        tagViolations configuration path text =
          (if '\n' ∈ text.toList.take offset then
            [(SourceFile.ofText path text).1.violation "E0001"
              ⟨(LineIndex.ofText text.toList).span offset, "The opening tag is not on the right line. " ++
                "This should always be the first line in a PHP file."⟩]
          else []) ++
          if 0 < offset ∧ text.toList[offset - 1]? ≠ some '\n' then
            [(SourceFile.ofText path text).1.violation "E0001"
              ⟨(LineIndex.ofText text.toList).span offset,
                "The opening tag doesn't start at the right column: " ++
                  toString ((LineIndex.ofText text.toList).span offset).column ++ "."⟩]
          else [] := by
  rw [tagViolations_eq selected]
  refine ⟨?nothing, ?first⟩
  case nothing =>
    intro silent
    by_cases script : StartsScript text
    · rw [misplacedTag, if_pos ((SourceFile.isScript_ofText path text).mpr script), List.map_nil]
    · have untagged := Lexeme.htmlLength_eq_length (silent.resolve_right script)
      rw [misplacedTag_ofText parsed script, untagged, if_neg (Nat.lt_irrefl _), List.map_nil]
  case first =>
    intro offset tag first noScript
    have place := Lexeme.htmlLength_eq tag first
    rw [misplacedTag_ofText parsed noScript, place, if_pos tag.offset_lt, LineIndex.span_ofText,
      List.map_append, wrongTagLine, wrongTagColumn]
    simp only [one_lt_line_spanAt, one_lt_column_spanAt, apply_ite (List.map _)]
    rfl

/-- The tag stands on the second line, behind a blank. -/
theorem openingTag_violations_indented :
    parse "a\n <?php" = .ok [.inlineHtml {} "a\n ", .openingTag ⟨2, 2, 3⟩ "<?php"] ∧
    tagViolations {} "" "a\n <?php" =
      [⟨"E0001", " <?php", "The opening tag is not on the right line. " ++
          "This should always be the first line in a PHP file.", ⟨2, 2, 3⟩⟩,
        ⟨"E0001", " <?php", "The opening tag doesn't start at the right column: 2.", ⟨2, 2, 3⟩⟩] := by
  have parsed : parse "a\n <?php" = .ok [.inlineHtml {} "a\n ", .openingTag ⟨2, 2, 3⟩ "<?php"] := rfl
  obtain ⟨_, first⟩ := @openingTag_violations {} "" _ _ parsed rfl
  have reported := first 3 (by decide) (by decide) (by decide)
  rw [LineIndex.span_ofText] at reported
  exact ⟨parsed, reported⟩

end Audit

end PhpAudit
