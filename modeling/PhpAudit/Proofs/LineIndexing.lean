import PhpAudit.Proofs.FilePositions
import PhpAudit.Proofs.PlainTexts
import PhpAudit.Proofs.ViolationLines
import PhpAudit.Text.LineIndex

/-!
The index of a text is exact. The place that it looks up for an offset is the one that counting from
the start of the text gives, at every offset and past the end, and a program that stops before the
end of its text is reported at that place.
-/

namespace PhpAudit

/-! Bytes -/

theorem byteSize_append (first second : List Char) :
    byteSize (first ++ second) = byteSize first + byteSize second := by
  induction first with
  | nil => exact (Nat.zero_add _).symm
  | cons character rest ih => rw [List.cons_append, byteSize, byteSize, ih, Nat.add_assoc]

theorem byteSize_eq_length_encode (text : List Char) :
    byteSize text = (Utf8.encode text).length := by
  induction text with
  | nil => rfl
  | cons character rest ih =>
      rw [Utf8.encode_cons, List.length_append, String.length_utf8EncodeChar, ← ih, byteSize]

theorem take_append_slice (text : List Char) {first last : Nat} (ordered : first ≤ last) :
    text.take first ++ slice text first last = text.take last := by
  have front : text.take first = (text.take last).take first := by
    rw [List.take_take, Nat.min_eq_left ordered]
  rw [slice, front, List.take_append_drop]

theorem byteSize_take_lt {text : List Char} {first second : Nat} (ordered : first < second)
    (bound : second ≤ text.length) :
    byteSize (text.take first) < byteSize (text.take second) := by
  rw [← take_append_slice text (Nat.le_of_lt ordered), byteSize_append]
  have length : (slice text first second).length = second - first := by
    rw [slice, List.length_drop, List.length_take, Nat.min_eq_left bound]
  cases passed : slice text first second with
  | nil =>
      rw [passed, List.length_nil] at length
      omega
  | cons character rest =>
      have := Char.utf8Size_pos character
      rw [byteSize]
      omega

/-! Lines -/

/-- An offset, perhaps past the end, is on the line that starts at another one: a line feed or the
text itself starts there, and no line feed stands between the two. -/
structure OnLine (text : List Char) (start offset : Nat) : Prop where
  fromStart : start ≤ offset
  inside : start ≤ text.length
  starts : start = 0 ∨ text[start - 1]? = some '\n'
  unbroken : ∀ index, start ≤ index → index < offset → text[index]? ≠ some '\n'

/-- The place of an offset, counted from the start of the text and of the line. -/
def countedSpan (text : List Char) (start offset : Nat) : Span :=
  ⟨(text.take offset).count '\n' + 1, offset - start + 1, (Utf8.encode (text.take offset)).length⟩

theorem Span.column_after_of_unbroken {characters : List Char} (place : Span)
    (unbroken : '\n' ∉ characters) :
    (place.after characters).column = place.column + characters.length := by
  induction characters generalizing place with
  | nil => rfl
  | cons character rest ih =>
      obtain ⟨other, later⟩ : '\n' ≠ character ∧ '\n' ∉ rest := by simpa using unbroken
      rw [after_cons, ih _ later, next, if_neg (Ne.symm other)]
      exact Nat.add_right_comm place.column 1 rest.length

theorem OnLine.column_start {text : List Char} {start offset : Nat}
    (line : OnLine text start offset) : (({} : Span).after (text.take start)).column = 1 := by
  rcases line.starts with rfl | feed
  · rfl
  · obtain ⟨bound, here⟩ := List.getElem?_eq_some_iff.mp feed
    by_cases first : start = 0
    · rw [first]
      rfl
    · have last : text.take start = text.take (start - 1) ++ ['\n'] := by
        rw [← here, ← List.take_succ_eq_append_getElem bound, Nat.sub_add_cancel (by omega)]
      rw [last, Span.after_append]
      rfl

theorem OnLine.slice_unbroken {text : List Char} {start offset : Nat}
    (line : OnLine text start offset) : '\n' ∉ slice text start offset := by
  intro member
  obtain ⟨index, here⟩ := List.getElem?_of_mem member
  rw [slice, List.getElem?_drop, List.getElem?_take] at here
  split at here
  · exact line.unbroken _ (Nat.le_add_right _ _) (by assumption) here
  · cases here

/-- Counting from the start of the text gives the same place as counting from its line. -/
theorem OnLine.spanAt_eq {text : List Char} {start offset : Nat}
    (line : OnLine text start offset) : spanAt text offset = countedSpan text start offset := by
  have column := Span.column_after_of_unbroken (({} : Span).after (text.take start))
    line.slice_unbroken
  rw [← Span.after_append, take_append_slice text line.fromStart, line.column_start] at column
  have length : (slice text start offset).length = min offset text.length - start := by
    rw [slice, List.length_drop, List.length_take]
  have feeds := Span.line_after {} (text.take offset)
  have bytes := Span.position_after {} (text.take offset)
  have ahead := line.fromStart
  have inside := line.inside
  rw [spanAt, countedSpan, Span.mk.injEq]
  refine ⟨?_, ?_, ?_⟩
  · rw [feeds]
    exact Nat.add_comm _ _
  · rw [column, length]
    omega
  · rw [bytes]
    exact Nat.zero_add _

namespace LineIndex

/-! Starts of lines -/

theorem mem_feedEnds {start stop : Nat} {text : List Char} :
    stop ∈ feedEnds start text ↔ ∃ index, text[index]? = some '\n' ∧ stop = start + index + 1 := by
  induction text generalizing start with
  | nil => simp [feedEnds]
  | cons character rest ih =>
      have later : stop ∈ feedEnds (start + 1) rest ↔
          ∃ index, (character :: rest)[index + 1]? = some '\n' ∧ stop = start + (index + 1) + 1 := by
        rw [ih]
        simp only [List.getElem?_cons_succ]
        exact exists_congr fun index => and_congr_right fun _ => by omega
      unfold feedEnds
      split
      · rename_i feed
        rw [List.mem_cons, later]
        constructor
        · rintro (rfl | ⟨index, here, rfl⟩)
          · exact ⟨0, by simp [feed], rfl⟩
          · exact ⟨index + 1, here, rfl⟩
        · rintro ⟨_ | index, here, rfl⟩
          · exact .inl rfl
          · exact .inr ⟨index, here, rfl⟩
      · rename_i other
        rw [later]
        constructor
        · rintro ⟨index, here, rfl⟩
          exact ⟨index + 1, here, rfl⟩
        · rintro ⟨_ | index, here, rfl⟩
          · exact absurd (by simpa using here) other
          · exact ⟨index, here, rfl⟩

theorem lt_of_mem_feedEnds {start stop : Nat} {text : List Char}
    (member : stop ∈ feedEnds start text) : start < stop := by
  obtain ⟨index, -, rfl⟩ := mem_feedEnds.mp member
  omega

theorem feedEnds_increasing (start : Nat) (text : List Char) :
    (feedEnds start text).Pairwise (· < ·) := by
  induction text generalizing start with
  | nil => exact List.Pairwise.nil
  | cons character rest ih =>
      unfold feedEnds
      split
      · exact List.pairwise_cons.mpr ⟨fun _ member => lt_of_mem_feedEnds member, ih _⟩
      · exact ih _

theorem countP_feedEnds (start count : Nat) (text : List Char) :
    (feedEnds start text).countP (fun stop => decide (stop ≤ start + count)) =
      (text.take count).count '\n' := by
  induction text generalizing start count with
  | nil => simp [feedEnds]
  | cons character rest ih =>
      cases count with
      | zero =>
          rw [List.take_zero, List.count_nil, List.countP_eq_zero]
          intro stop member
          have := lt_of_mem_feedEnds member
          simpa using this
      | succ count =>
          have shifted := ih (start + 1) count
          rw [Nat.add_right_comm start 1 count] at shifted
          unfold feedEnds
          rw [List.take_succ_cons, List.count_cons, ← shifted]
          split
          · rename_i feed
            rw [List.countP_cons_of_pos (by simp), feed]
            rfl
          · rename_i other
            simp [other, Nat.add_assoc]

theorem linesFrom_offsets (text : List Char) (start : LineStart) (offsets : List Nat) :
    (linesFrom text start offsets).map LineStart.offset = start.offset :: offsets := by
  induction offsets generalizing start with
  | nil => rfl
  | cons offset later ih => rw [linesFrom, List.map_cons, ih]

theorem position_of_mem_linesFrom {text : List Char} {start line : LineStart} {offsets : List Nat}
    (increasing : (start.offset :: offsets).Pairwise (· < ·))
    (counted : start.position = byteSize (text.take start.offset))
    (member : line ∈ linesFrom text start offsets) :
    line.position = byteSize (text.take line.offset) := by
  induction offsets generalizing start with
  | nil =>
      cases List.mem_singleton.mp member
      exact counted
  | cons offset later ih =>
      obtain ⟨ahead, behind⟩ := List.pairwise_cons.mp increasing
      rcases List.mem_cons.mp member with rfl | below
      · exact counted
      · refine ih behind ?_ below
        rw [counted, ← byteSize_append,
          take_append_slice text (Nat.le_of_lt (ahead offset List.mem_cons_self))]

theorem starts_offsets (text : List Char) :
    (ofText text).starts.toList.map LineStart.offset = 0 :: feedEnds 0 text :=
  linesFrom_offsets text {} (feedEnds 0 text)

theorem offsets_increasing (text : List Char) : (0 :: feedEnds 0 text).Pairwise (· < ·) :=
  List.pairwise_cons.mpr ⟨fun _ member => lt_of_mem_feedEnds member, feedEnds_increasing 0 text⟩

theorem position_of_mem_starts {text : List Char} {line : LineStart}
    (member : line ∈ (ofText text).starts.toList) :
    line.position = byteSize (text.take line.offset) :=
  position_of_mem_linesFrom (offsets_increasing text) rfl member

/-- A table of lines whose starts increase. -/
def Increasing (starts : Array LineStart) : Prop :=
  ∀ (first second : Nat) (line later : LineStart), first < second → starts[first]? = some line →
    starts[second]? = some later → line.offset < later.offset

theorem increasing_ofText (text : List Char) : Increasing (ofText text).starts := by
  intro first second line later before here there
  have sorted := offsets_increasing text
  rw [← starts_offsets, List.pairwise_map, List.pairwise_iff_getElem] at sorted
  rw [← Array.getElem?_toList, List.getElem?_eq_some_iff] at here there
  obtain ⟨bound, rfl⟩ := here
  obtain ⟨bound', rfl⟩ := there
  exact sorted first second bound bound' before

/-! Halving -/

/-- All lines before the first number start up to the offset, and all from the second on behind. -/
structure Halved (starts : Array LineStart) (offset low high : Nat) : Prop where
  ordered : low ≤ high
  before : ∀ line start, starts[line]? = some start → line < low → start.offset ≤ offset
  behind : ∀ line start, starts[line]? = some start → high ≤ line → offset < start.offset

namespace Halved

variable {starts : Array LineStart} {offset low high middle : Nat} {start : LineStart}

theorem lower (halved : Halved starts offset low high) (increasing : Increasing starts)
    (inside : low ≤ middle) (here : starts[middle]? = some start) (late : offset < start.offset) :
    Halved starts offset low middle where
  ordered := inside
  before := halved.before
  behind := by
    intro line later there above
    rcases Nat.lt_or_eq_of_le above with beyond | rfl
    · exact Nat.lt_trans late (increasing middle line start later beyond here there)
    · cases here.symm.trans there
      exact late

theorem upper (halved : Halved starts offset low high) (increasing : Increasing starts)
    (inside : middle < high) (here : starts[middle]? = some start) (early : start.offset ≤ offset) :
    Halved starts offset (middle + 1) high where
  ordered := inside
  before := by
    intro line earlier there below
    rcases Nat.lt_or_eq_of_le (Nat.le_of_lt_succ below) with before | rfl
    · exact Nat.le_trans (Nat.le_of_lt (increasing line middle earlier start before there here)) early
    · cases here.symm.trans there
      exact early
  behind := halved.behind

theorem search {bound : high ≤ starts.size} (halved : Halved starts offset low high)
    (increasing : Increasing starts) :
    Halved starts offset (search starts offset low high bound)
      (search starts offset low high bound) := by
  fun_induction LineIndex.search starts offset low high bound with
  | case1 low high bound inside middle within late ih =>
      exact ih (halved.lower increasing (by omega) (Array.getElem?_eq_getElem within) late)
  | case2 low high bound inside middle within early ih =>
      exact ih (halved.upper increasing (by omega) (Array.getElem?_eq_getElem within)
        (Nat.le_of_not_lt early))
  | case3 low high bound outside =>
      have same : low = high := Nat.le_antisymm halved.ordered (Nat.le_of_not_lt outside)
      subst same
      exact halved

end Halved

/-! The place of an offset -/

theorem countP_eq_of_split {Item : Type} {items : List Item} {chosen : Item → Bool} {count : Nat}
    (bound : count ≤ items.length)
    (before : ∀ index item, items[index]? = some item → index < count → chosen item = true)
    (behind : ∀ index item, items[index]? = some item → count ≤ index → chosen item = false) :
    items.countP chosen = count := by
  have front : (items.take count).countP chosen = count := by
    rw [List.countP_eq_length.mpr, List.length_take, Nat.min_eq_left bound]
    intro item member
    obtain ⟨index, here⟩ := List.getElem?_of_mem member
    rw [List.getElem?_take] at here
    split at here
    · exact before index item here (by assumption)
    · cases here
  have back : (items.drop count).countP chosen = 0 := by
    rw [List.countP_eq_zero]
    intro item member
    obtain ⟨index, here⟩ := List.getElem?_of_mem member
    rw [List.getElem?_drop] at here
    simp [behind _ item here (Nat.le_add_right _ _)]
  rw [← List.take_append_drop count items, List.countP_append, front, back]
  rfl

variable (text : List Char) (offset : Nat)

theorem halved_ofText :
    Halved (ofText text).starts offset ((ofText text).linesUpTo offset)
      ((ofText text).linesUpTo offset) := by
  refine Halved.search ⟨Nat.zero_le _, ?_, ?_⟩ (increasing_ofText text)
  · intro line start _ before
    exact absurd before (Nat.not_lt_zero _)
  · intro line start here beyond
    obtain ⟨bound, -⟩ := Array.getElem?_eq_some_iff.mp here
    omega

theorem linesUpTo_ofText :
    (ofText text).linesUpTo offset = (text.take offset).count '\n' + 1 := by
  have halved := halved_ofText text offset
  have counted : (ofText text).starts.toList.countP (fun line => decide (line.offset ≤ offset)) =
      (ofText text).linesUpTo offset := by
    refine countP_eq_of_split ((ofText text).linesUpTo_le offset) ?_ ?_
    · intro index line here before
      rw [Array.getElem?_toList] at here
      exact decide_eq_true (halved.before index line here before)
    · intro index line here beyond
      rw [Array.getElem?_toList] at here
      exact decide_eq_false (Nat.not_le_of_lt (halved.behind index line here beyond))
  have feeds := countP_feedEnds 0 offset text
  rw [Nat.zero_add] at feeds
  calc
    (ofText text).linesUpTo offset
      = ((ofText text).starts.toList.map LineStart.offset).countP
          (fun stop => decide (stop ≤ offset)) := by
      rw [List.countP_map, ← counted]
      rfl
    _ = (text.take offset).count '\n' + 1 := by
      rw [starts_offsets, List.countP_cons_of_pos (by simp), feeds]

theorem lineOf_ofText : (ofText text).lineOf offset = (text.take offset).count '\n' := by
  rw [lineOf, linesUpTo_ofText, Nat.add_sub_cancel]

theorem onLine_ofText {line : LineStart}
    (here : (ofText text).starts[(ofText text).lineOf offset]? = some line) :
    OnLine text line.offset offset := by
  have halved := halved_ofText text offset
  rw [linesUpTo_ofText] at halved
  rw [lineOf_ofText] at here
  have listed : line.offset ∈ 0 :: feedEnds 0 text := by
    rw [← starts_offsets]
    exact List.mem_map_of_mem (List.mem_of_getElem? (Array.getElem?_toList ▸ here))
  have placed : line.offset = 0 ∨ ∃ index, text[index]? = some '\n' ∧ line.offset = index + 1 := by
    rcases List.mem_cons.mp listed with first | later
    · exact .inl first
    · obtain ⟨index, feed, same⟩ := mem_feedEnds.mp later
      exact .inr ⟨index, feed, by omega⟩
  refine ⟨halved.before _ _ here (Nat.lt_succ_self _), ?_, ?_, ?_⟩
  · rcases placed with first | ⟨index, feed, same⟩
    · omega
    · obtain ⟨bound, -⟩ := List.getElem?_eq_some_iff.mp feed
      omega
  · rcases placed with first | ⟨index, feed, same⟩
    · exact .inl first
    · exact .inr (by rw [same, Nat.add_sub_cancel, feed])
  · -- The line behind a feed in between would start before the offset, so it would be the one found.
    intro index above below feed
    have member : index + 1 ∈ (ofText text).starts.toList.map LineStart.offset := by
      rw [starts_offsets]
      exact List.mem_cons_of_mem _ (mem_feedEnds.mpr ⟨index, feed, by omega⟩)
    obtain ⟨later, inside, same⟩ := List.mem_map.mp member
    obtain ⟨number, there⟩ := List.getElem?_of_mem inside
    rw [Array.getElem?_toList] at there
    rcases Nat.lt_or_ge ((text.take offset).count '\n') number with beyond | within
    · have := halved.behind number later there beyond
      omega
    · rcases Nat.lt_or_eq_of_le within with before | rfl
      · have := increasing_ofText text _ _ later line before there here
        omega
      · cases here.symm.trans there
        omega

/-- The index looks up the place that counting gives. -/
theorem exists_span_ofText :
    ∃ start, OnLine text start offset ∧ (ofText text).span offset = countedSpan text start offset := by
  have bound := (ofText text).lineOf_lt offset
  have here := Array.getElem?_eq_getElem bound
  have line := onLine_ofText text offset here
  refine ⟨_, line, ?_⟩
  have position : ((ofText text).starts[(ofText text).lineOf offset]).position = byteSize
      (text.take ((ofText text).starts[(ofText text).lineOf offset]).offset) :=
    position_of_mem_starts (Array.getElem_mem_toList bound)
  have bytes := congrArg byteSize (take_append_slice text line.fromStart)
  rw [byteSize_append, ← position, byteSize_eq_length_encode (text.take offset)] at bytes
  rw [span, countedSpan, Span.mk.injEq]
  exact ⟨congrArg (· + 1) (lineOf_ofText text offset), rfl, bytes⟩

theorem span_ofText : (ofText text).span offset = spanAt text offset := by
  obtain ⟨start, line, found⟩ := exists_span_ofText text offset
  rw [found, line.spanAt_eq]

theorem position_ofText :
    ((ofText text).span offset).position = byteSize (text.take offset) := by
  obtain ⟨start, -, found⟩ := exists_span_ofText text offset
  rw [found, countedSpan, byteSize_eq_length_encode]

end LineIndex

/-- A text is refused at a place exactly if the program read from its start stops there before the
end of the text. -/
theorem parse_eq_stopped_iff {text : String} {span : Span} :
    parse text = .error (.stopped span) ↔
      ∃ statements cursor, (Reader.program (Nested.ofText text.toList)).run
          (Cursor.ofText text.toList) = some (statements, cursor) ∧
        cursor.offset < text.toList.length ∧ cursor.rest = text.toList.drop cursor.offset ∧
        span = spanAt text.toList cursor.offset := by
  obtain ⟨found, later, read⟩ := Reader.exists_run_program (Nested.ofText text.toList)
    (Cursor.ofText text.toList)
  obtain ⟨passed, passes⟩ := (Reader.program _).moves read
  have whole : text.toList = passed ++ later.rest := passes.rest
  have offset : later.offset = passed.length := passes.offset.trans (Nat.zero_add _)
  have place : later.span = spanAt text.toList later.offset := by
    rw [passes.span, spanAt, offset, whole]
    simp [Cursor.ofText, Cursor.start]
  have rest : later.rest = text.toList.drop later.offset := by
    rw [offset, whole, List.drop_left]
  have inside : later.rest ≠ [] ↔ later.offset < text.toList.length := by
    rw [offset, whole, List.length_append, ← List.length_pos_iff]
    omega
  have outcome : parse text = .error (.stopped span) ↔ later.rest ≠ [] ∧ span = later.span := by
    have run := read
    simp only [Nested.ofText, Cursor.ofText] at run
    simp only [parse, run]
    cases ahead : later.rest with
    | nil => cases later.misread <;> simp
    | cons character others => simp [eq_comm]
  rw [outcome, inside]
  constructor
  · rintro ⟨bound, rfl⟩
    exact ⟨found, later, read, bound, rest, place⟩
  · rintro ⟨statements, cursor, again, bound, -, rfl⟩
    cases Option.some.inj (read.symm.trans again)
    exact ⟨bound, place.symm⟩

/-- The index of a text is exact at every offset, where an offset past the end has the whole text
before it and the last line around it. The places up to the end differ from each other, and their
bytes increase. A text that is refused is refused at the place of the offset where its program
stops. -/
theorem LineIndex.span_exact (text : String) :
    (∀ offset, ∃ start, OnLine text.toList start offset ∧
      (ofText text.toList).span offset =
        ⟨(text.toList.take offset).count '\n' + 1, offset - start + 1,
          (Utf8.encode (text.toList.take offset)).length⟩) ∧
    (∀ first second, first ≤ text.toList.length → second ≤ text.toList.length →
      (ofText text.toList).span first = (ofText text.toList).span second → first = second) ∧
    (∀ first second, first < second → second ≤ text.toList.length →
      ((ofText text.toList).span first).position < ((ofText text.toList).span second).position) ∧
    ∀ span, parse text = .error (.stopped span) ↔
      ∃ statements cursor, (Reader.program (Nested.ofText text.toList)).run
          (Cursor.ofText text.toList) = some (statements, cursor) ∧
        cursor.offset < text.toList.length ∧ cursor.rest = text.toList.drop cursor.offset ∧
        span = (ofText text.toList).span cursor.offset := by
  have increase : ∀ first second, first < second → second ≤ text.toList.length →
      ((ofText text.toList).span first).position < ((ofText text.toList).span second).position := by
    intro first second before bound
    rw [position_ofText, position_ofText]
    exact byteSize_take_lt before bound
  refine ⟨exists_span_ofText text.toList, ?_, increase, ?_⟩
  · intro first second bound bound' same
    rcases Nat.lt_trichotomy first second with before | equal | behind
    · exact absurd (congrArg Span.position same) (Nat.ne_of_lt (increase _ _ before bound'))
    · exact equal
    · exact absurd (congrArg Span.position same.symm) (Nat.ne_of_lt (increase _ _ behind bound))
  · intro span
    simp only [span_ofText]
    exact parse_eq_stopped_iff

end PhpAudit
