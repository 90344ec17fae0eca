import PhpAudit.Proofs.ResultTotals
import PhpAudit.Proofs.Utf8Encoding
import PhpAudit.Proofs.ViolationLines

/-!
Positions of violations and the bytes of files. A file is audited as a text in which all line ends
are line feeds, and positions are counted there. A carriage return by itself is as long as a line
feed, but of a carriage return before a line feed nothing is left, so the position of a violation
lies one byte before its place in the file for every such pair ahead of it.
-/

namespace PhpAudit

/-- The number of carriage returns directly before a line feed. -/
def newlinePairs : List Char → Nat
  | [] => 0
  | '\r' :: '\n' :: rest => newlinePairs rest + 1
  | _ :: rest => newlinePairs rest

/-- A file divided at a place, such that its text is divided at a span. -/
structure DividedAt (file : List Char) (span : Span) (before behind : List Char) : Prop where
  whole : file = before ++ behind
  text : unifyNewlines file = unifyNewlines before ++ unifyNewlines behind
  span : span = ({} : Span).after (unifyNewlines before)

/-! Line ends -/

theorem newlinePairs_other {character : Char} {rest : List Char}
    (single : ∀ tail, character = '\r' → rest = '\n' :: tail → False) :
    newlinePairs (character :: rest) = newlinePairs rest := by
  rw [newlinePairs]
  exact single

theorem length_encode_unifyNewlines (file : List Char) :
    (Utf8.encode (unifyNewlines file)).length + newlinePairs file =
      (Utf8.encode file).length := by
  fun_induction unifyNewlines file with
  | case1 => rfl
  | case2 rest ih =>
      simp only [Utf8.encode_cons, List.length_append, String.length_utf8EncodeChar, newlinePairs]
      simp only [← ih, show Char.utf8Size '\n' = 1 from rfl, show Char.utf8Size '\r' = 1 from rfl]
      omega
  | case3 rest single ih =>
      rw [newlinePairs_other fun tail _ => single tail]
      simp only [Utf8.encode_cons, List.length_append, String.length_utf8EncodeChar]
      simp only [← ih, show Char.utf8Size '\n' = 1 from rfl, show Char.utf8Size '\r' = 1 from rfl]
      omega
  | case4 character rest pair lone ih =>
      rw [newlinePairs_other fun _ carriage _ => lone carriage]
      simp only [Utf8.encode_cons, List.length_append, ← ih]
      omega

/-- Wherever the text of a file is divided, the file can be divided with it. -/
theorem exists_division {file passed ahead : List Char}
    (divided : unifyNewlines file = passed ++ ahead) :
    ∃ before behind, file = before ++ behind ∧ unifyNewlines before = passed ∧
      unifyNewlines behind = ahead := by
  fun_induction unifyNewlines file generalizing passed with
  | case1 =>
      obtain ⟨rfl, rfl⟩ := List.append_eq_nil_iff.mp divided.symm
      exact ⟨[], [], rfl, rfl, rfl⟩
  | case2 rest ih =>
      cases passed with
      | nil => exact ⟨[], '\r' :: '\n' :: rest, rfl, rfl, by simpa [unifyNewlines] using divided⟩
      | cons first passed =>
          obtain ⟨rfl, tail⟩ := List.cons.inj divided
          obtain ⟨before, behind, rfl, front, back⟩ := ih tail
          exact ⟨'\r' :: '\n' :: before, behind, rfl, by rw [unifyNewlines, front], back⟩
  | case3 rest single ih =>
      cases passed with
      | nil => exact ⟨[], '\r' :: rest, rfl, rfl, by rw [unifyNewlines]; exacts [divided, single]⟩
      | cons first passed =>
          obtain ⟨rfl, tail⟩ := List.cons.inj divided
          obtain ⟨before, behind, rfl, front, back⟩ := ih tail
          refine ⟨'\r' :: before, behind, rfl, ?_, back⟩
          rw [unifyNewlines, front]
          rintro later rfl
          exact single (later ++ behind) rfl
  | case4 character rest pair lone ih =>
      cases passed with
      | nil =>
          exact ⟨[], character :: rest, rfl, rfl, by rw [unifyNewlines]; exacts [divided, pair, lone]⟩
      | cons first passed =>
          obtain ⟨rfl, tail⟩ := List.cons.inj divided
          obtain ⟨before, behind, rfl, front, back⟩ := ih tail
          refine ⟨character :: before, behind, rfl, ?_, back⟩
          rw [unifyNewlines, front]
          · exact fun _ carriage _ => lone carriage
          · exact lone

/-! Positions -/

theorem Span.position_after (place : Span) (characters : List Char) :
    (place.after characters).position =
      place.position + (Utf8.encode characters).length := by
  induction characters generalizing place with
  | nil => rfl
  | cons character rest ih =>
      have step : (place.next character).position = place.position + character.utf8Size := by
        unfold next
        split <;> rfl
      rw [after_cons, ih, step, Utf8.encode_cons, List.length_append, String.length_utf8EncodeChar]
      omega

theorem DividedAt.position_eq {file before behind : List Char} {span : Span}
    (divided : DividedAt file span before behind) :
    (Utf8.encode before).length = span.position + newlinePairs before := by
  rw [divided.span, Span.position_after, ← length_encode_unifyNewlines before]
  exact congrArg (· + newlinePairs before) (Nat.zero_add _).symm

theorem Placed.divided {file : List Char} {span : Span} (placed : Placed (unifyNewlines file) span) :
    ∃ before behind, DividedAt file span before behind := by
  obtain ⟨offset, bound, rfl⟩ := placed
  obtain ⟨before, behind, whole, front, back⟩ :=
    exists_division (List.take_append_drop offset (unifyNewlines file)).symm
  refine ⟨before, behind, whole, ?_, ?_⟩
  · rw [front, back, List.take_append_drop]
  · rw [front, spanAt, Nat.sub_eq_zero_of_le bound]
    rfl

namespace FoundFile

theorem toList_textOf_encode (file : List Char) :
    (textOf (Utf8.encode file)).toList = unifyNewlines file := by
  rw [textOf, String.toList_ofList, Utf8.decodeLossy_encode]

theorem encode_textOf_iff (file : List Char) :
    Utf8.encode (textOf (Utf8.encode file)).toList = Utf8.encode file ↔ '\r' ∉ file := by
  rw [toList_textOf_encode, ← unifyNewlines_eq_self_iff]
  exact ⟨Utf8.encode_injective, congrArg Utf8.encode⟩

end FoundFile

theorem Audit.exists_node {audit : Audit} {path text : String} {violation : Violation}
    (reported : violation ∈ (audit.auditText path text).1) :
    ∃ statements, parse text = .ok statements ∧
      ∃ statement ∈ statements, statement.outline.HasPlace violation.span := by
  obtain ⟨check, settings, finding, found, rfl⟩ := Audit.exists_finding reported
  obtain ⟨statement, listed, place⟩ := Check.findings_place check settings found
  cases parsed : parse text with
  | ok statements =>
      simp only [parsed] at listed
      exact ⟨statements, rfl, statement, listed, place⟩
  | error error =>
      simp only [parsed] at listed
      cases listed

namespace Results

variable {audit : Audit} {files : List FoundFile} {path : String} {violations : List Violation}

/-- What is listed for a path was found in files that were read at this path. -/
theorem exists_file_of_listed (listed : (path, violations) ∈ (scan audit files).1.files)
    {violation : Violation} (reported : violation ∈ violations) :
    ∃ file ∈ files, ∃ bytes, file.path.text = path ∧ file.content = .ok bytes ∧
      violation ∈ (audit.auditText path (FoundFile.textOf bytes)).1 := by
  have consistent := consistent_scan audit files
  have found := (Entries.find?_eq_some_iff consistent.distinct).mpr listed
  rw [consistent.lists] at found
  split at found
  case isFalse => cases found
  cases found
  obtain ⟨call, kept, inCall⟩ := List.mem_flatMap.mp reported
  obtain ⟨given, here⟩ := List.mem_filter.mp kept
  obtain ⟨item, readable, rfl⟩ := List.mem_map.mp given
  obtain ⟨file, inFiles, read⟩ := List.mem_filterMap.mp readable
  have same : item.1 = path := by simpa using here
  cases content : file.content with
  | error failure => simp [FoundFile.readable, content] at read
  | ok bytes =>
      simp only [FoundFile.readable, content, Option.some.injEq] at read
      subst read
      exact ⟨file, inFiles, bytes, same, content, same ▸ inCall⟩

/-- The text of a file in UTF-8 has its characters with all line ends as line feeds, so it has the
bytes of the file exactly if there is no carriage return. A violation names the place of a node in
this text, and its position is smaller than the place in the file by the number of pairs of a
carriage return and a line feed before it. -/
theorem scan_position_eq (audit : Audit) (files : List FoundFile) :
    (∀ file : List Char,
      (FoundFile.textOf (Utf8.encode file)).toList = unifyNewlines file ∧
      (Utf8.encode (FoundFile.textOf (Utf8.encode file)).toList = Utf8.encode file ↔
        '\r' ∉ file)) ∧
    ∀ path violations, (path, violations) ∈ (scan audit files).1.files →
      ∀ violation ∈ violations, ∃ found ∈ files, ∃ bytes,
        found.path.text = path ∧ found.content = .ok bytes ∧
        (∃ statements, parse (FoundFile.textOf bytes) = .ok statements ∧
          ∃ statement ∈ statements, statement.outline.HasPlace violation.span) ∧
        ∀ file, bytes = Utf8.encode file →
          ∃ before behind, DividedAt file violation.span before behind ∧
            (Utf8.encode before).length = violation.span.position + newlinePairs before := by
  constructor
  · intro file
    exact ⟨FoundFile.toList_textOf_encode file, FoundFile.encode_textOf_iff file⟩
  · intro path violations listed violation reported
    obtain ⟨found, inFiles, bytes, same, content, audited⟩ :=
      exists_file_of_listed listed reported
    refine ⟨found, inFiles, bytes, same, content, Audit.exists_node audited, ?_⟩
    rintro file rfl
    have placed := Audit.placed_violation audited
    rw [FoundFile.toList_textOf_encode] at placed
    obtain ⟨before, behind, divided⟩ := placed.divided
    exact ⟨before, behind, divided, divided.position_eq⟩

/-- A violation of the file below. -/
def lateTag : Violation :=
  ⟨"E0001", "<?php", "The opening tag is not on the right line. " ++
    "This should always be the first line in a PHP file.", ⟨2, 1, 1⟩⟩

/-- The tag stands at the third byte of the file, and its position is that of the second. -/
theorem scan_position_eq_pair :
    ("a", [lateTag]) ∈ (scan ⟨[.ofCheck .openingTag]⟩
      [⟨{ parts := ["a"] }, .ok (Utf8.encode "\r\n<?php".toList)⟩]).1.files ∧
    ∃ before behind, DividedAt "\r\n<?php".toList lateTag.span before behind ∧
      (Utf8.encode before).length = lateTag.span.position + newlinePairs before := by
  have listed : ("a", [lateTag]) ∈ (scan ⟨[.ofCheck .openingTag]⟩
      [⟨{ parts := ["a"] }, .ok (Utf8.encode "\r\n<?php".toList)⟩]).1.files :=
    List.mem_singleton.mpr rfl
  refine ⟨listed, ?_⟩
  obtain ⟨found, inFiles, bytes, -, content, -, divided⟩ :=
    (scan_position_eq _ _).2 _ _ listed _ (List.mem_singleton_self _)
  rw [List.mem_singleton] at inFiles
  subst inFiles
  cases content
  exact divided _ rfl

end Results

end PhpAudit
