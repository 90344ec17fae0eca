import PhpAudit.Proofs.FindingPlaces
import PhpAudit.Proofs.SitedStatements

/-!
The line that a violation shows. The place of a violation counts lines by line feeds, while the
lines of a file end at other characters as well. Both agree up to a place as long as the text
before it and on its line has no ends of lines but line feeds, perhaps behind a carriage return.
-/

namespace PhpAudit

/-- Lines end with a line feed only, or with a carriage return before a line feed or at the end. -/
def endsPlainly : List Char → Bool
  | [] => true
  | character :: rest =>
      (character == '\n' || !isLineEnd character ||
        character == '\r' && rest.head?.all fun next => next == '\n') && endsPlainly rest

/-- A line without a carriage return at its end. -/
def withoutReturn (line : List Char) : List Char :=
  if line.getLast? = some '\r' then line.dropLast else line

/-- The line of a text around an offset lies between the line feeds before and after it. -/
structure LineAround (text : List Char) (offset : Nat) (before line after : List Char) : Prop where
  whole : text = before ++ line ++ after
  starts : before = [] ∨ ∃ earlier, before = earlier ++ ['\n']
  ends : after = [] ∨ ∃ later, after = '\n' :: later
  unbroken : '\n' ∉ line
  fromStart : before.length ≤ offset
  toEnd : offset ≤ before.length + line.length

/-! The lines that a place counts -/

theorem Span.line_after (place : Span) (characters : List Char) :
    (place.after characters).line = place.line + characters.count '\n' := by
  induction characters generalizing place with
  | nil => rfl
  | cons character rest ih =>
      rw [after_cons, ih, List.count_cons]
      by_cases feed : character = '\n'
      · simp only [next, feed, if_true, beq_self_eq_true]
        omega
      · simp [next, feed]

theorem exists_lastFeed (passed : List Char) :
    ∃ before tail, passed = before ++ tail ∧ '\n' ∉ tail ∧
      (before = [] ∨ ∃ earlier, before = earlier ++ ['\n']) := by
  induction passed with
  | nil => exact ⟨[], [], rfl, List.not_mem_nil, .inl rfl⟩
  | cons character rest ih =>
      obtain ⟨before, tail, rfl, unbroken, starts⟩ := ih
      rcases starts with rfl | ⟨earlier, rfl⟩
      · by_cases feed : character = '\n'
        · exact ⟨['\n'], tail, by rw [feed]; rfl, unbroken, .inr ⟨[], rfl⟩⟩
        · refine ⟨[], character :: tail, rfl, ?_, .inl rfl⟩
          simp only [List.mem_cons, not_or]
          exact ⟨Ne.symm feed, unbroken⟩
      · refine ⟨character :: earlier ++ ['\n'], tail, rfl, unbroken, .inr ?_⟩
        exact ⟨character :: earlier, rfl⟩

theorem exists_nextFeed (rest : List Char) :
    ∃ head after, rest = head ++ after ∧ '\n' ∉ head ∧
      (after = [] ∨ ∃ later, after = '\n' :: later) := by
  induction rest with
  | nil => exact ⟨[], [], rfl, List.not_mem_nil, .inl rfl⟩
  | cons character rest ih =>
      by_cases feed : character = '\n'
      · exact ⟨[], character :: rest, rfl, List.not_mem_nil, .inr ⟨rest, by rw [feed]⟩⟩
      · obtain ⟨head, after, rfl, unbroken, ends⟩ := ih
        refine ⟨character :: head, after, rfl, ?_, ends⟩
        simp only [List.mem_cons, not_or]
        exact ⟨Ne.symm feed, unbroken⟩

theorem exists_lineAround {text : List Char} {offset : Nat} (bound : offset ≤ text.length) :
    ∃ before line after, LineAround text offset before line after := by
  obtain ⟨before, tail, passed, noneBefore, starts⟩ := exists_lastFeed (text.take offset)
  obtain ⟨head, after, coming, noneAfter, ends⟩ := exists_nextFeed (text.drop offset)
  have length : before.length + tail.length = offset := by
    rw [← List.length_append, ← passed, List.length_take, Nat.min_eq_left bound]
  refine ⟨before, tail ++ head, after, ?_, starts, ends, ?_, ?_, ?_⟩
  · calc text = text.take offset ++ text.drop offset := (List.take_append_drop offset text).symm
      _ = before ++ (tail ++ head) ++ after := by rw [passed, coming]; simp
  · simp only [List.mem_append, not_or]
    exact ⟨noneBefore, noneAfter⟩
  · omega
  · rw [List.length_append]
    omega

/-- The place on a line counts the line feeds before the line. -/
theorem LineAround.line_spanAt {text before line after : List Char} {offset : Nat}
    (around : LineAround text offset before line after) :
    (spanAt text offset).line = before.count '\n' + 1 := by
  have taken : text.take offset = before ++ line.take (offset - before.length) := by
    have fits : offset - before.length ≤ line.length := by
      have := around.toEnd
      omega
    rw [around.whole, List.append_assoc, List.take_append,
      List.take_of_length_le around.fromStart, List.take_append_of_le_length fits]
  have none : (line.take (offset - before.length)).count '\n' = 0 :=
    List.count_eq_zero.mpr fun member => around.unbroken (List.mem_of_mem_take member)
  have counted := Span.line_after {} (text.take offset)
  rw [taken, List.count_append, none] at counted
  simp only [spanAt, taken, counted]
  omega

/-! The lines of a file -/

theorem endsPlainly_cons {character : Char} {rest : List Char}
    (plain : endsPlainly (character :: rest) = true) :
    endsPlainly rest = true ∧ (character = '\n' ∨ isLineEnd character = false ∨
      character = '\r' ∧ (rest = [] ∨ ∃ later, rest = '\n' :: later)) := by
  simp only [endsPlainly, Bool.and_eq_true, Bool.or_eq_true, beq_iff_eq, Bool.not_eq_true']
    at plain
  obtain ⟨(feed | inner) | ⟨carriage, follows⟩, others⟩ := plain
  · exact ⟨others, .inl feed⟩
  · exact ⟨others, .inr (.inl inner)⟩
  · refine ⟨others, .inr (.inr ⟨carriage, ?_⟩)⟩
    cases rest with
    | nil => exact .inl rfl
    | cons next later =>
        have feed : next = '\n' := by simpa using follows
        exact .inr ⟨later, by rw [feed]⟩

theorem endsPlainly_of_append {first second : List Char}
    (plain : endsPlainly (first ++ second) = true) :
    endsPlainly first = true ∧ endsPlainly second = true := by
  induction first with
  | nil => exact ⟨rfl, plain⟩
  | cons character rest ih =>
      obtain ⟨others, kind⟩ := endsPlainly_cons plain
      obtain ⟨restPlain, secondPlain⟩ := ih others
      refine ⟨?_, secondPlain⟩
      simp only [endsPlainly, restPlain, Bool.and_true, Bool.or_eq_true, Bool.and_eq_true,
        beq_iff_eq, Bool.not_eq_true']
      rcases kind with feed | inner | ⟨carriage, follows⟩
      · exact .inl (.inl feed)
      · exact .inl (.inr inner)
      · refine .inr ⟨carriage, ?_⟩
        cases rest with
        | nil => rfl
        | cons next later => simpa using follows

theorem splitLinesFrom_feed (current rest : List Char) :
    splitLinesFrom current ('\n' :: rest) =
      String.ofList current.reverse :: splitLinesFrom [] rest := by
  simp [splitLinesFrom, isLineEnd]

theorem splitLinesFrom_return (current rest : List Char) :
    splitLinesFrom current ('\r' :: '\n' :: rest) = splitLinesFrom current ('\n' :: rest) := by
  rw [splitLinesFrom_feed, splitLinesFrom]

theorem splitLinesFrom_inner {character : Char} (inner : isLineEnd character = false)
    (current rest : List Char) :
    splitLinesFrom current (character :: rest) = splitLinesFrom (character :: current) rest := by
  rw [splitLinesFrom]
  · simp [inner]
  · rintro later rfl
    cases inner

/-- The lines before a line feed are as many as it has line feeds before it, and one more. -/
theorem drop_splitLinesFrom {start : List Char} (plain : endsPlainly start = true)
    (current rest : List Char) :
    (splitLinesFrom current (start ++ '\n' :: rest)).drop (start.count '\n' + 1) =
      splitLinesFrom [] rest := by
  induction start generalizing current with
  | nil => rw [List.nil_append, splitLinesFrom_feed]; rfl
  | cons character more ih =>
      obtain ⟨others, kind⟩ := endsPlainly_cons plain
      rcases kind with rfl | inner | ⟨rfl, rfl | ⟨later, rfl⟩⟩
      · rw [List.cons_append, splitLinesFrom_feed, List.count_cons_self, List.drop_succ_cons]
        exact ih others []
      · have other : character ≠ '\n' := by
          rintro rfl
          cases inner
        rw [List.cons_append, splitLinesFrom_inner inner, List.count_cons_of_ne other]
        exact ih others (character :: current)
      · rw [List.singleton_append, splitLinesFrom_return, splitLinesFrom_feed]
        rfl
      · rw [List.cons_append, List.cons_append, splitLinesFrom_return, ← List.cons_append,
          List.count_cons_of_ne (by decide)]
        exact ih others current

theorem withoutReturn_cons {character : Char} (other : character ≠ '\r') (rest : List Char) :
    withoutReturn (character :: rest) = character :: withoutReturn rest := by
  cases rest with
  | nil => simp [withoutReturn, other]
  | cons next later =>
      simp only [withoutReturn, List.getLast?_cons_cons, List.dropLast_cons_cons,
        apply_ite (List.cons character)]

theorem head_splitLinesFrom {line after : List Char} (plain : endsPlainly line = true)
    (unbroken : '\n' ∉ line) (ends : after = [] ∨ ∃ later, after = '\n' :: later)
    (current : List Char) :
    ((splitLinesFrom current (line ++ after))[0]?).getD "" =
      String.ofList (current.reverse ++ withoutReturn line) := by
  induction line generalizing current with
  | nil =>
      rcases ends with rfl | ⟨later, rfl⟩
      · cases current <;> simp [splitLinesFrom, withoutReturn]
      · rw [List.nil_append, splitLinesFrom_feed]
        simp [withoutReturn]
  | cons character rest ih =>
      obtain ⟨others, kind⟩ := endsPlainly_cons plain
      have restUnbroken : '\n' ∉ rest := fun member => unbroken (List.mem_cons_of_mem _ member)
      rcases kind with rfl | inner | ⟨rfl, rfl | ⟨later, rfl⟩⟩
      · exact absurd List.mem_cons_self unbroken
      · have other : character ≠ '\r' := by
          rintro rfl
          cases inner
        rw [List.cons_append, splitLinesFrom_inner inner, ih others restUnbroken,
          withoutReturn_cons other, List.reverse_cons, List.append_assoc]
        rfl
      · rcases ends with rfl | ⟨later, rfl⟩
        · simp [splitLinesFrom, isLineEnd, withoutReturn]
        · rw [List.singleton_append, splitLinesFrom_return, splitLinesFrom_feed]
          simp [withoutReturn]
      · exact absurd List.mem_cons_self restUnbroken

/-- As many lines of the file come before a line as there are line feeds before it. -/
theorem LineAround.splitLines_eq {text : String} {before line after : List Char} {offset : Nat}
    (around : LineAround text.toList offset before line after)
    (plain : endsPlainly (before ++ line) = true) :
    ((splitLines text)[before.count '\n']?).getD "" = String.ofList (withoutReturn line) := by
  have whole := around.whole
  rcases around.starts with rfl | ⟨earlier, rfl⟩
  · rw [splitLines, whole]
    exact head_splitLinesFrom plain around.unbroken around.ends []
  · obtain ⟨beforePlain, linePlain⟩ := endsPlainly_of_append plain
    have earlierPlain := (endsPlainly_of_append beforePlain).1
    have rest : (splitLines text).drop (earlier.count '\n' + 1) =
        splitLinesFrom [] (line ++ after) := by
      rw [splitLines, whole, List.append_assoc, List.append_assoc, List.singleton_append]
      exact drop_splitLinesFrom earlierPlain [] (line ++ after)
    have shown := head_splitLinesFrom linePlain around.unbroken around.ends []
    rw [← rest, List.getElem?_drop] at shown
    rw [List.count_append, List.count_singleton_self]
    exact shown

/-! Violations -/

theorem Audit.exists_finding {audit : Audit} {file : SourceFile} {violation : Violation}
    (reported : violation ∈ audit.violations file) :
    ∃ check settings, ∃ finding ∈ Check.findings check settings file,
      violation = file.violation check.code finding := by
  obtain ⟨rule, _, listed⟩ := List.mem_flatMap.mp reported
  unfold Rule.violations at listed
  dsimp only at listed
  split at listed
  · obtain ⟨finding, found, rfl⟩ := List.mem_map.mp listed
    exact ⟨rule.check, _, finding, found, rfl⟩
  · cases listed

theorem Audit.placed_violation {audit : Audit} {path text : String} {violation : Violation}
    (reported : violation ∈ (audit.auditText path text).1) : Placed text.toList violation.span := by
  obtain ⟨check, settings, finding, found, rfl⟩ := Audit.exists_finding reported
  obtain ⟨statement, listed, place⟩ := Check.findings_place check settings found
  cases parsed : parse text with
  | ok statements =>
      simp only [parsed] at listed
      exact place.placed (parse_sited parsed statement listed)
  | error error =>
      simp only [parsed] at listed
      cases listed

theorem Audit.line_violation {audit : Audit} {path text : String} {violation : Violation}
    (reported : violation ∈ (audit.auditText path text).1) :
    violation.line = (SourceFile.ofText path text).1.lineText violation.span.line := by
  obtain ⟨check, settings, finding, _, rfl⟩ := Audit.exists_finding reported
  rfl

/-- A violation stands on a line of the text between two line feeds and shows the line of the file
with the same number. This is the line it stands on, up to a carriage return, if the text up to
the end of that line ends its lines plainly. -/
theorem Audit.violation_line_eq (audit : Audit) (path text : String) :
    ∀ violation ∈ (audit.auditText path text).1,
      ∃ offset before line after, spanAt text.toList offset = violation.span ∧
        LineAround text.toList offset before line after ∧
        violation.line = ((splitLines text)[before.count '\n']?).getD "" ∧
        (endsPlainly (before ++ line) = true →
          violation.line = String.ofList (withoutReturn line)) := by
  intro violation reported
  obtain ⟨offset, bound, span⟩ := Audit.placed_violation reported
  obtain ⟨before, line, after, around⟩ := exists_lineAround bound
  have shown : violation.line = ((splitLines text)[before.count '\n']?).getD "" := by
    rw [Audit.line_violation reported, ← span, around.line_spanAt]
    rfl
  refine ⟨offset, before, line, after, span, around, shown, ?_⟩
  intro plain
  rw [shown, around.splitLines_eq plain]

/-- The tag stands on the second line; the first one ends with a carriage return and a line
feed. -/
theorem Audit.violation_line_eq_secondLine :
    ∃ violation ∈ ((⟨[.ofCheck .openingTag]⟩ : Audit).auditText "" "\r\n<?php").1,
      ∃ offset before line after, spanAt "\r\n<?php".toList offset = violation.span ∧
        LineAround "\r\n<?php".toList offset before line after ∧
        violation.line = String.ofList (withoutReturn line) := by
  have reported : ((⟨[.ofCheck .openingTag]⟩ : Audit).auditText "" "\r\n<?php").1 =
      [⟨"E0001", "<?php", "The opening tag is not on the right line. " ++
        "This should always be the first line in a PHP file.", ⟨2, 1, 2⟩⟩] := rfl
  have listed := List.mem_singleton_self
    (⟨"E0001", "<?php", "The opening tag is not on the right line. " ++
      "This should always be the first line in a PHP file.", ⟨2, 1, 2⟩⟩ : Violation)
  rw [← reported] at listed
  obtain ⟨offset, before, line, after, span, around, _, shown⟩ :=
    Audit.violation_line_eq ⟨[.ofCheck .openingTag]⟩ "" "\r\n<?php" _ listed
  have plain : endsPlainly (before ++ line ++ after) = true := by
    rw [← around.whole]
    rfl
  exact ⟨_, listed, offset, before, line, after, span, around,
    shown (endsPlainly_of_append plain).1⟩

end PhpAudit
