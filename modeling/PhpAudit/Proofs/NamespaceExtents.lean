import PhpAudit.Proofs.NearestElse

/-!
Namespaces without braces in a tree. Such a namespace goes on to the start of the next one. Only a
namespace with a header before a closing tag does not end the one before it, but becomes its last
statement.
-/

namespace PhpAudit

open Outline Form

theorem exists_package_of_outline {statement : Stmt} {span : Span} {name : Option String}
    {inner : List Stmt} {braced : Bool}
    (same : (Stmt.package span name inner braced).outline = statement.outline) :
    ∃ label nested, statement = .package span label nested braced := by
  have label : "Namespace" = statement.label := Stmt.label_eq_of_outline same
  cases statement with
  | package place title nested flag =>
      simp only [Stmt.outline, Outline.node.injEq, List.cons.injEq, Prod.mk.injEq,
        Outline.flag.injEq] at same
      obtain ⟨_, rfl, _, _, ⟨_, rfl⟩, _⟩ := same
      exact ⟨_, _, rfl⟩
  | declaration content => exact absurd label.symm (Stmt.label_declaration_ne content (by decide))
  | _ => simp [Stmt.label] at label

/-- Whether namespaces stand at the end can be seen from the outlines of the statements. -/
theorem TaggedAtEnd.of_outlines_eq {text : List Char} {first second : List Stmt}
    (tagged : TaggedAtEnd text first)
    (same : first.map Stmt.outline = second.map Stmt.outline) : TaggedAtEnd text second := by
  rintro before span name inner braced after rfl
  rw [List.map_append, List.map_cons] at same
  obtain ⟨front, behind, rfl, _, same⟩ := List.map_eq_append_iff.mp same
  obtain ⟨statement, rest, rfl, outline, others⟩ := List.map_eq_cons_iff.mp same
  obtain ⟨label, nested, rfl⟩ := exists_package_of_outline outline.symm
  obtain ⟨unbraced, rfl, place⟩ := tagged front span label nested braced rest rfl
  exact ⟨unbraced, List.map_eq_nil_iff.mp others.symm, place⟩

/-- A namespace without braces ends where no header before a closing tag stands. If it is the last
of the statements, it goes on to where they end. Otherwise the next statement stands at the start
of another namespace, and it is that namespace if the whole of one stands there. -/
def SiblingsFollow (text : List Char) (last : Nat) : List Stmt → Prop :=
  EachPackage fun _ braced after => braced = false →
    ∃ offset ≤ text.length, ¬ Matches Symbol.rules Symbol.taggedHeader (text.drop offset) ∧
      (after = [] → offset = last) ∧
      ∀ next rest, after = next :: rest →
        Matches Symbol.rules (.symbol .namespaceStart) (text.drop offset) ∧
        (Matches Symbol.rules (.symbol .namespaceStatement) (text.drop offset) →
          ∃ name inner braced, next = .package (spanAt text offset) name inner braced)

namespace Reader

variable {text : List Char} {cursor later : Cursor}

/-- One round of a list of statements. -/
def listRound (nested : Nested) : Reader (List Stmt) := do
  let statements ← nested.statement
  skip
  return statements

/-- What the first statement of a list tells about the place where the list starts. -/
structure ListStart (cursor : Cursor) (statements : List Stmt) (later : Cursor) : Prop where
  nothing : statements = [] → later.offset = cursor.offset
  statement : ∀ next rest, statements = next :: rest →
    Matches Symbol.rules (.symbol .statement) cursor.rest ∧
    (Matches Symbol.rules (.symbol .namespaceStatement) cursor.rest →
      ∃ name inner braced, next = .package cursor.span name inner braced)

/-- What is behind a namespace without braces, if the list goes on at its end. -/
theorem ListStart.follows {rest : List Stmt} (on : cursor.OnText text)
    (settled : Symbol.Settled cursor.rest) (start : ListStart cursor rest later) :
    ∃ offset ≤ text.length, ¬ Matches Symbol.rules Symbol.taggedHeader (text.drop offset) ∧
      (rest = [] → offset = later.offset) ∧
      ∀ next others, rest = next :: others →
        Matches Symbol.rules (.symbol .namespaceStart) (text.drop offset) ∧
        (Matches Symbol.rules (.symbol .namespaceStatement) (text.drop offset) →
          ∃ name inner braced, next = .package (spanAt text offset) name inner braced) := by
  refine ⟨cursor.offset, on.offset_le, ?_⟩
  rw [← on.within.rest, on.within.spanAt_offset on.offset_le]
  refine ⟨settled.not_taggedHeader, fun none => (start.nothing none).symm, ?_⟩
  intro next others same
  obtain ⟨statement, package⟩ := start.statement next others same
  exact ⟨settled.namespaceStart statement, package⟩

theorem listRounds_follow {limit : Nat} {groups : List (List Stmt)} (on : cursor.OnText text)
    (read : (many limit (listRound (Nested.ofText text))).run cursor = some (groups, later)) :
    ListStart cursor groups.flatten later ∧ SiblingsFollow text later.offset groups.flatten := by
  induction limit generalizing cursor groups with
  | zero =>
      cases read
      exact ⟨⟨fun _ => rfl, nofun⟩, .nil⟩
  | succ limit ih =>
      rcases run_many_succ read with ⟨rfl, rfl⟩ | ⟨statements, behind, others, rfl, first, rest⟩
      · exact ⟨⟨fun _ => rfl, nofun⟩, .nil⟩
      obtain ⟨start, follow⟩ := ih (on.reaches ((listRound (Nested.ofText text)).moves first)) rest
      obtain ⟨_, middle, taken, skipped⟩ := run_bind first
      obtain ⟨_, _, gap, given⟩ := run_bind skipped
      cases given
      cases gap
      obtain ⟨filled, headed, whole⟩ := nestedStatement_headed on taken
      have stands := (Follows.heldStatement on.told).matches taken
      have onMiddle := on.reaches ((Nested.ofText text).statement.moves taken)
      rw [List.flatten_cons]
      refine ⟨⟨fun none => absurd (List.append_eq_nil_iff.mp none).1 filled, ?_⟩, ?_⟩
      · intro next more same
        refine ⟨stands, fun package => ?_⟩
        obtain ⟨name, inner, braced, rfl⟩ := whole package
        exact ⟨name, inner, braced, (List.cons.inj same).1.symm⟩
      · cases headed with
        | others none => exact .append none follow
        | package _ ends =>
            refine .cons_package (fun unbraced => ?_) follow
            have settled := ends unbraced
            -- No trivia follows the namespace, so the list goes on where it ends.
            rw [show Lexeme.trivia middle.rest = 0 from settled.bare] at start
            exact start.follows onMiddle settled

theorem program_follow {statements : List Stmt}
    (read : (program (Nested.ofText text)).run (Cursor.ofText text) = some (statements, later)) :
    later.OnText text ∧ SiblingsFollow text later.offset statements := by
  have on : (Cursor.ofText text).OnText text := ⟨0, Nat.zero_le _, false, rfl⟩
  have ended := on.reaches ((program (Nested.ofText text)).moves read)
  obtain ⟨html, _, htmlRead, read⟩ := run_bind read
  obtain ⟨tag, _, tagRead, read⟩ := run_bind read
  obtain ⟨_, _, skipped, read⟩ := run_bind read
  obtain ⟨listed, _, listRead, given⟩ := run_bind read
  cases given
  obtain ⟨groups, _, rounds, given⟩ := run_bind listRead
  cases given
  have reached := (((perhaps inlineHtml).moves htmlRead).trans
    ((perhaps openingTag).moves tagRead)).trans (skip.moves skipped)
  obtain ⟨_, follow⟩ := listRounds_follow (on.reaches reached) rounds
  have noHtml := inlineHtml_notPackage.option (Cursor.Reaches.refl _) htmlRead
  have noTag := openingTag_notPackage.option (Cursor.Reaches.refl _) tagRead
  exact ⟨ended, .append (by simpa [or_imp, forall_and] using ⟨noHtml, noTag⟩) follow⟩

theorem reads_unbracedNamespace_settled {first last : Nat} {statement : Stmt}
    (reads : Reads text unbracedNamespace first statement last) :
    Symbol.Settled (text.drop last) := by
  obtain ⟨cursor, later, ⟨misread, rfl⟩, ⟨noted, rfl⟩, read⟩ := reads
  have within : Cursor.Within (Nested.ofText text) text _ := Cursor.within_onTable first misread
  exact unbracedNamespace_settled (follows_unbracedNamespace within.told) read

end Reader

theorem parse_siblingsFollow {text : String} {statements : List Stmt}
    (parsed : parse text = .ok statements) :
    SiblingsFollow text.toList text.toList.length statements := by
  obtain ⟨later, read, ended⟩ := exists_run_of_parse parsed
  obtain ⟨on, follow⟩ := Reader.program_follow read
  have whole : text.toList.drop later.offset = [] := on.within.rest.symm.trans ended
  rwa [Nat.le_antisymm on.offset_le (List.drop_eq_nil_iff.mp whole)] at follow

/-- A namespace without braces goes on to the start of another one that has a semicolon or a brace
behind its name, or as far as there are statements. In the list of a program, that other one is its
sibling. A namespace inside it has a header before a closing tag, at which no namespace without
braces ends, and is its last statement. -/
theorem parse_namespace_extents {text : String} {statements : List Stmt}
    (parsed : parse text = .ok statements) :
    (∀ statement ∈ statements, ∀ span name inner,
      Occurs (Stmt.package span name inner false).outline statement.outline →
        TaggedAtEnd text.toList inner) ∧
    SiblingsFollow text.toList text.toList.length statements ∧
    ∀ first statement last, Reads text.toList Reader.unbracedNamespace first statement last →
      (Matches Symbol.rules (.symbol .namespaceStart) (text.toList.drop last) ∨
        Answers Symbol.rules (.symbol .statement) (text.toList.drop last) none) ∧
      ¬ Matches Symbol.rules Symbol.taggedHeader (text.toList.drop last) := by
  refine ⟨?inside, parse_siblingsFollow parsed, ?behind⟩
  case inside =>
    intro statement member span name inner occurs
    have node := parse_sited parsed statement member "Namespace" span _ occurs
    obtain ⟨title, written, braced, fields, tagged⟩ := node.package rfl
    simp only [List.cons.injEq, Prod.mk.injEq, Outline.list.injEq, Outline.flag.injEq,
      outlineStmts_eq_map] at fields
    obtain ⟨_, ⟨_, same⟩, ⟨_, rfl⟩, _⟩ := fields
    exact (tagged rfl).of_outlines_eq same.symm
  case behind =>
    intro first statement last reads
    have settled := Reader.reads_unbracedNamespace_settled reads
    exact ⟨settled.ends, settled.not_taggedHeader⟩

/-- The second namespace is a sibling of the first one, and holds the third. -/
theorem parse_namespace_extents_nested :
    parse "<?php namespace A; namespace B; namespace C ?>" = .ok [.openingTag {} "<?php",
      .package ⟨1, 7, 6⟩ (some "A") [] false,
      .package ⟨1, 20, 19⟩ (some "B")
        [.package ⟨1, 33, 32⟩ (some "C") [.closingTag ⟨1, 45, 44⟩] false] false] ∧
    (∃ offset ≤ "<?php namespace A; namespace B; namespace C ?>".toList.length,
      spanAt "<?php namespace A; namespace B; namespace C ?>".toList offset = ⟨1, 33, 32⟩ ∧
        Matches Symbol.rules Symbol.taggedHeader
          ("<?php namespace A; namespace B; namespace C ?>".toList.drop offset)) ∧
    ∃ offset ≤ "<?php namespace A; namespace B; namespace C ?>".toList.length,
      Matches Symbol.rules (.symbol .namespaceStart)
        ("<?php namespace A; namespace B; namespace C ?>".toList.drop offset) := by
  have parsed : parse "<?php namespace A; namespace B; namespace C ?>" =
      .ok [.openingTag {} "<?php", .package ⟨1, 7, 6⟩ (some "A") [] false,
        .package ⟨1, 20, 19⟩ (some "B")
          [.package ⟨1, 33, 32⟩ (some "C") [.closingTag ⟨1, 45, 44⟩] false] false] := rfl
  obtain ⟨inside, siblings, _⟩ := parse_namespace_extents parsed
  have tagged := inside _ (List.mem_cons_of_mem _ (List.mem_cons_of_mem _ List.mem_cons_self))
    ⟨1, 20, 19⟩ _ _ .here
  obtain ⟨_, _, place⟩ := tagged [] _ _ _ _ _ rfl
  obtain ⟨offset, bound, _, _, next⟩ := siblings [_] _ _ _ _ _ rfl rfl
  exact ⟨parsed, place, offset, bound, (next _ _ rfl).1⟩

end PhpAudit
