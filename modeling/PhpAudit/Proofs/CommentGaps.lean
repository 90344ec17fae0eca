import PhpAudit.Proofs.TwinParts

/-!
Gaps in a program. A gap is a run of white space between two pieces, together with a comment that may
stand in its place. The two texts that a gap makes are read side by side: up to the gap they are the
same, and behind it they are the same again. Every rule takes the same characters at such places, up
to the few rules that look for white space by themselves, and white space is skipped alike.
-/

namespace PhpAudit

namespace Lexeme

/-! The end of a word -/

/-- A character of a word. -/
def isWordPart (character : Char) : Bool := isNamePart character && !isBlank character

/-- No word goes on from the one text to the other. -/
def parted (front ahead : List Char) : Bool :=
  !(front.getLast?.any isWordPart && startsWith isWordPart ahead)

theorem parted_of_ahead {front ahead : List Char} (dark : startsWith isWordPart ahead = false) :
    parted front ahead = true := by
  simp [parted, dark]

/-- What ends with a sign is the end of no word. -/
theorem parted_of_last {front passed ahead : List Char} {last : Char}
    (ends : passed.getLast? = some last) (dark : isWordPart last = false) :
    parted (front ++ passed) ahead = true := by
  simp [parted, List.getLast?_append, ends, dark]

/-- The last character that the rule takes is this one. -/
def Ends (last : Char) (rule : Lexeme) : Prop :=
  ∀ text length, rule text = some length → (text.take length).getLast? = some last

theorem Ends.one (last : Char) : (one (· == last)).Ends last := by
  intro text length taken
  cases text with
  | nil => cases taken
  | cons character rest =>
      simp only [Lexeme.one] at taken
      split at taken
      · rename_i same
        cases taken
        simpa using same
      · cases taken

theorem Ends.mark {expected : List Char} {last : Char} (ends : expected.getLast? = some last) :
    (mark expected).Ends last := by
  intro text length taken
  have front := mark_eq_some taken
  obtain ⟨rfl, -⟩ := mark_length taken
  rw [front, List.take_left, ends]

theorem Ends.followedBy {first second : Lexeme} {last : Char} (ends : second.Ends last) :
    (followedBy first second).Ends last := by
  intro text length taken
  simp only [Lexeme.followedBy] at taken
  split at taken
  · obtain ⟨more, rest, rfl⟩ := Option.map_eq_some_iff.mp taken
    rw [List.take_add, List.getLast?_append, ends _ more rest]
    rfl
  · cases taken

theorem Ends.step {rule : Lexeme} {last character : Char} {rest : List Char} {length : Nat}
    (ends : ∀ length, rule rest = some length → (rest.take length).getLast? = some last)
    (taken : (rule rest).map (· + 1) = some length) :
    ((character :: rest).take length).getLast? = some last := by
  obtain ⟨shorter, others, rfl⟩ := Option.map_eq_some_iff.mp taken
  rw [List.take_succ_cons, List.getLast?_cons, ends shorter others]
  rfl

theorem ends_blockComment : blockComment.Ends '/' := by
  intro text
  induction text with
  | nil => exact nofun
  | cons character rest ih =>
      intro length taken
      simp only [blockComment] at taken
      split at taken
      · rename_i closed
        cases taken
        simp only [Bool.and_eq_true, beq_iff_eq] at closed
        obtain ⟨others, rfl⟩ := List.head?_eq_some_iff.mp closed.2
        rfl
      · exact Ends.step ih taken

theorem ends_attributeRest (depth : Nat) : (attributeRest depth).Ends ']' := by
  intro text
  induction text generalizing depth with
  | nil => exact nofun
  | cons character rest ih =>
      intro length taken
      simp only [attributeRest] at taken
      split at taken
      · split at taken
        · exact Ends.step (ih _) taken
        · cases taken
      · split at taken
        · rename_i closes
          split at taken
          · exact Ends.step (ih _) taken
          · cases taken
            simpa using closes
        · exact Ends.step (ih _) taken

/-- The end of a rule that takes a sign last is the end of no word. -/
theorem parted_of_ends {rule : Lexeme} {last : Char} (ends : rule.Ends last)
    (dark : isWordPart last = false) {text : List Char} {start length : Nat}
    (taken : rule (text.drop start) = some length) :
    parted (text.take (start + length)) (text.drop (start + length)) = true := by
  rw [List.take_add]
  exact parted_of_last (ends _ length taken) dark

theorem lineComment_stops (body : List Char) :
    startsWith isWordPart (body.drop (lineComment body)) = false := by
  induction body with
  | nil => rfl
  | cons character rest ih =>
      simp only [lineComment]
      split
      · rename_i feed
        obtain rfl : character = '\n' := beq_iff_eq.mp feed
        rfl
      · split
        · rename_i tag
          simp only [Bool.and_eq_true, beq_iff_eq] at tag
          obtain ⟨rfl, -⟩ := tag
          rfl
        · exact ih

/-- White space and comments that follow the end of a word end no other one. -/
theorem parted_triviaItem {text : List Char} {more : Nat} (item : triviaItem text = more + 1)
    (front : List Char) :
    more + 1 ≤ text.length ∧
      parted (front ++ text.take (more + 1)) (text.drop (more + 1)) = true := by
  cases text with
  | nil => cases item
  | cons character rest =>
      simp only [triviaItem] at item
      split at item
      · rename_i white
        cases item
        exact ⟨by simp, parted_of_last rfl (by simp [isWordPart, white])⟩
      split at item
      · split at item
        · cases item
        · cases item
          exact ⟨Nat.succ_le_succ (lineComment_le rest), parted_of_ahead (lineComment_stops rest)⟩
      split at item
      · split at item
        · cases item
        · rename_i second body
          split at item
          · cases item
            refine ⟨?_, parted_of_ahead (lineComment_stops body)⟩
            have bound := lineComment_le body
            simp only [List.length_cons]
            omega
          split at item
          · split at item
            · rename_i length closed
              cases item
              have bound := (closed_blockComment body length closed).1
              refine ⟨by simpa using bound, ?_⟩
              have last := ends_blockComment body length closed
              refine parted_of_last ?_ (show isWordPart '/' = false by decide)
              rw [List.take_succ_cons, List.take_succ_cons, List.getLast?_cons, List.getLast?_cons,
                last]
              rfl
            · cases item
          · cases item
      · cases item

theorem parted_trivia {front text : List Char} (apart : parted front text = true) :
    parted (front ++ text.take (trivia text)) (text.drop (trivia text)) = true := by
  induction size : text.length using Nat.strongRecOn generalizing front text with
  | ind length ih =>
      cases item : triviaItem text with
      | zero => simpa [trivia_zero item] using apart
      | succ more =>
          obtain ⟨bound, next⟩ := parted_triviaItem item front
          have shorter : (text.drop (more + 1)).length < length := by
            rw [List.length_drop]
            omega
          have rest := ih _ shorter next rfl
          rwa [List.append_assoc, ← List.take_add, List.drop_drop, ← trivia_item item bound] at rest

/-! The braces behind a list of names -/

/-- A list of names goes no further: here is the end of a statement, a parenthesis, a brace, or the
backslash in front of one. -/
def endsNames : List Char → Bool
  | [] => false
  | character :: rest =>
      [';', '(', '\x7b'].contains character || (character == '\\' && rest.head? == some '\x7b')

/-- The text from the end of the names on, where a number of characters is known to belong to a piece
already entered. -/
def behindNamesFrom (known : Nat) : List Char → List Char
  | [] => []
  | character :: rest =>
      match known with
      | more + 1 => behindNamesFrom more rest
      | 0 =>
          if endsNames (character :: rest) then character :: rest
          else
            match piece (character :: rest) with
            | some (more + 1) => behindNamesFrom more rest
            | _ => []

/-- The text from the end of the names on. -/
def behindNames (text : List Char) : List Char := behindNamesFrom 0 text

/-- Braces at the start of the text are closed in it, by the end of a piece. -/
def bracesClosed (text : List Char) : Bool :=
  !startsWith (· == '\x7b') text ||
    (traitAdaptations text).any fun length => code (text.drop length)

theorem behindNamesFrom_eq (known : Nat) (text : List Char) :
    behindNamesFrom known text = behindNames (text.drop known) := by
  induction text generalizing known with
  | nil => cases known <;> rfl
  | cons character rest ih =>
      cases known with
      | zero => rfl
      | succ more => exact ih more

theorem behindNames_self {text : List Char} (ends : endsNames text = true) :
    behindNames text = text := by
  cases text with
  | nil => rfl
  | cons character rest => simp [behindNames, behindNamesFrom, ends]

theorem behindNames_piece {character : Char} {rest : List Char} {more : Nat}
    (further : endsNames (character :: rest) = false)
    (first : piece (character :: rest) = some (more + 1)) :
    behindNames (character :: rest) = behindNames (rest.drop more) := by
  rw [← behindNamesFrom_eq]
  simp [behindNames, behindNamesFrom, further, first]

theorem behindNames_drop {text : List Char} {length : Nat}
    (plain : ∀ character ∈ text.take length, character ∉ signs)
    (further : ∀ index < length, endsNames (text.drop index) = false) :
    behindNames (text.drop length) = behindNames text := by
  induction length generalizing text with
  | zero => rfl
  | succ length ih =>
      cases text with
      | nil => rfl
      | cons character rest =>
          obtain ⟨first, others⟩ := List.forall_mem_cons.mp plain
          have next := behindNames_piece (further 0 (Nat.succ_pos length)) (piece_plain first rest)
          rw [List.drop_zero] at next
          rw [next, List.drop_succ_cons]
          exact ih others fun index inside => further (index + 1) (Nat.succ_lt_succ inside)

/-- White space and comments do not end a list of names. -/
theorem endsNames_of_trivia {character : Char} {rest tail : List Char} {more : Nat}
    (item : triviaItem (character :: (rest ++ tail)) = more + 1) :
    endsNames (character :: rest) = false := by
  have dark : ∀ sign ∈ [';', '(', '\x7b', '\\'], ∀ text, triviaItem (sign :: text) = 0 := by
    intro sign known text
    simp only [List.mem_cons, List.not_mem_nil, or_false] at known
    rcases known with rfl | rfl | rfl | rfl <;> rfl
  have apart : ∀ sign ∈ [';', '(', '\x7b', '\\'], character ≠ sign := by
    rintro sign known rfl
    rw [dark character known] at item
    cases item
  simp [endsNames, apart]

theorem behindNames_trivia {text : List Char} (whole : code text = true) (tail : List Char) :
    behindNames (text.drop (trivia (text ++ tail))) = behindNames text := by
  induction text, whole using code_induction with
  | nil => simp
  | step character rest more whole behind first bound ih =>
      rcases triviaItem_piece first with item | item
      · rw [trivia_piece (item tail) bound, Nat.add_right_comm, List.drop_succ_cons, ← List.drop_drop,
          ih, behindNames_piece (endsNames_of_trivia (item tail)) first]
      · have none' : trivia (character :: rest ++ tail) = 0 := trivia_zero (item tail)
        rw [none', List.drop_zero]

theorem nameTail_further {start part : Char → Bool} (open' : start '\x7b' = false)
    (parts : ∀ sign ∈ [';', '(', '\x7b', '\\'], part sign = false) (text : List Char)
    {index : Nat} (inside : index < nameTail start part text) :
    endsNames (text.drop index) = false := by
  induction text generalizing index with
  | nil => cases inside
  | cons character rest ih =>
      simp only [nameTail] at inside
      split at inside
      · rename_i holds
        cases index with
        | zero =>
            have apart : ∀ sign ∈ [';', '(', '\x7b', '\\'], character ≠ sign := by
              rintro sign known rfl
              rw [parts character known] at holds
              cases holds
            simp [endsNames, apart]
        | succ index => exact ih (Nat.lt_of_succ_lt_succ inside)
      · split at inside
        · rename_i slash
          cases index with
          | zero =>
              simp only [Bool.and_eq_true, beq_iff_eq] at slash
              obtain ⟨rfl, begins⟩ := slash
              have apart : rest.head? ≠ some '\x7b' := by
                intro brace
                obtain ⟨others, rfl⟩ := List.head?_eq_some_iff.mp brace
                simp [startsWith, open'] at begins
              simp [endsNames, apart]
          | succ index => exact ih (Nat.lt_of_succ_lt_succ inside)
        · cases inside

theorem qualifiedBy_further {start part : Char → Bool}
    (starts : ∀ sign ∈ [';', '(', '\x7b', '\\'], start sign = false)
    (parts : ∀ sign ∈ [';', '(', '\x7b', '\\'], part sign = false) {text : List Char}
    {length index : Nat} (taken : qualifiedBy start part text = some length)
    (inside : index < length) : endsNames (text.drop index) = false := by
  have tail := @nameTail_further start part (starts '\x7b' (by decide)) parts
  have first : ∀ character rest, start character = true →
      endsNames (character :: rest) = false := by
    intro character rest holds
    have apart : ∀ sign ∈ [';', '(', '\x7b', '\\'], character ≠ sign := by
      rintro sign known rfl
      rw [starts character known] at holds
      cases holds
    simp [endsNames, apart]
  cases text with
  | nil => cases taken
  | cons character rest =>
      by_cases slash : character = '\\'
      · subst slash
        cases rest with
        | nil => cases taken
        | cons second others =>
            by_cases holds : start second = true
            · simp [qualifiedBy, followedBy, perhaps, one, holds] at taken
              subst taken
              rcases index with _ | _ | index
              · have apart : second ≠ '\x7b' := by
                  rintro rfl
                  rw [starts '\x7b' (by decide)] at holds
                  cases holds
                simp [endsNames, apart]
              · exact first second others holds
              · exact tail others (by omega)
            · simp [qualifiedBy, followedBy, perhaps, one, holds] at taken
      · by_cases holds : start character = true
        · simp [qualifiedBy, followedBy, perhaps, one, holds, slash] at taken
          subst taken
          cases index with
          | zero => exact first character rest holds
          | succ index => exact tail rest (by omega)
        · simp [qualifiedBy, followedBy, perhaps, one, holds, slash] at taken

theorem behindNames_name {text : List Char} {length : Nat} (taken : name text = some length) :
    behindNames (text.drop length) = behindNames text := by
  simp only [name] at taken
  split at taken
  · cases taken
  · have solid : (qualifiedBy isAnyCaseNameStart isAnyCaseNamePart).Solid :=
      solid_qualifiedBy (by decide) (by decide)
    exact behindNames_drop (solid.taken text length taken).2 fun index inside =>
      qualifiedBy_further (by decide) (by decide) taken inside

/-- Braces are found in whatever text goes on behind their end. -/
theorem closed_traitAdaptations : traitAdaptations.Closed := by
  have rest : (followedBy (run (· != '\x7d')) (one (· == '\x7d'))).Closed := by
    intro text
    induction text with
    | nil => exact nofun
    | cons character rest ih =>
        intro length taken
        by_cases brace : character = '\x7d'
        · subst brace
          cases taken
          exact ⟨Nat.succ_pos _, fun _ => rfl⟩
        · have step : ∀ others, followedBy (run (· != '\x7d')) (one (· == '\x7d'))
              (character :: others) =
              (followedBy (run (· != '\x7d')) (one (· == '\x7d')) others).map (· + 1) := by
            intro others
            simp [followedBy, run, brace, Function.comp_def, Nat.add_right_comm]
          rw [step] at taken
          obtain ⟨shorter, others, rfl⟩ := Option.map_eq_some_iff.mp taken
          obtain ⟨bound, further⟩ := ih shorter others
          refine ⟨Nat.succ_le_succ bound, fun tail => ?_⟩
          rw [List.cons_append, step, further tail]
          rfl
  have first : (one (· == '\x7b')).Closed := by
    intro text length taken
    cases text with
    | nil => cases taken
    | cons character rest =>
        refine ⟨?_, fun _ => taken⟩
        simp only [one] at taken
        split at taken
        · cases taken
          exact Nat.succ_pos _
        · cases taken
  exact first.followedBy rest

theorem traitAdaptations_of_shut {text : List Char} (shut : startsWith (· == '\x7b') text = false) :
    traitAdaptations text = none := by
  cases text with
  | nil => rfl
  | cons character rest =>
      simp only [startsWith] at shut
      simp only [traitAdaptations, followedBy, one, shut, Bool.false_eq_true, if_false]

theorem behindNames_comma {text : List Char} {length : Nat}
    (taken : mark ",".toList text = some length) :
    behindNames (text.drop length) = behindNames text := by
  have comma := mark_eq_some taken
  generalize text.drop length = rest at comma ⊢
  subst comma
  exact (behindNames_piece rfl (piece_plain (by decide) rest)).symm

/-- A white character of the ASCII range is part of no name. -/
theorem mem_breaks_of_blank {character : Char} (white : isBlank character = true)
    (ascii : character.toNat < 0x80) : character ∈ breaks := by
  have itself : character = Char.ofNat character.toNat := (Char.ofNat_toNat character).symm
  simp only [isBlank, Bool.or_eq_true, Bool.and_eq_true, decide_eq_true_eq, beq_iff_eq] at white
  have known : character.toNat ∈ [9, 10, 11, 12, 13, 32] := by
    simp only [List.mem_cons, List.not_mem_nil, or_false]
    omega
  have each : ∀ code ∈ [9, 10, 11, 12, 13, 32], Char.ofNat code ∈ breaks := by decide
  rw [itself]
  exact each _ known

/-! Rules that look for white space by themselves -/

/-- The rules take something, and no sign. -/
theorem spacedRules_plain {rule : Lexeme} (known : rule ∈ spacedRules) :
    rule.Positive ∧ rule.Takes (· ∉ signs) := by
  have blank : ∀ character, isBlank character = true → character ∉ signs := by
    rintro character white sign
    have dark : ∀ sign ∈ signs, isBlank sign = false := by decide
    rw [dark character sign] at white
    cases white
  have word : ∀ {word : String}, solidWord word = true →
      (letters word.toList).Positive ∧ (letters word.toList).Takes (· ∉ signs) :=
    fun solid => ⟨positive_letters solid, (solid_letters solid).taken⟩
  have call : ∀ {word : String}, solidWord word = true →
      (keywordCall word).Positive ∧ (keywordCall word).Takes (· ∉ signs) :=
    fun solid => ⟨.before (word solid).1, .before (word solid).2⟩
  simp only [spacedRules, List.mem_cons, List.not_mem_nil, or_false] at known
  rcases known with rfl | rfl | rfl | rfl | rfl | rfl
  · have sign : ∀ {sign : Char}, sign ∉ signs → (one (· == sign)).Takes (· ∉ signs) := by
      intro sign plain
      exact .one fun character same => beq_iff_eq.mp same ▸ plain
    constructor
    · refine .anyOf fun rule member => ?_
      obtain ⟨_, _, rfl⟩ := List.mem_map.mp member
      exact .followedBy_left .one
    · refine .anyOf fun rule member => ?_
      obtain ⟨text, castWord, rfl⟩ := List.mem_map.mp member
      have solid : ∀ text ∈ castWords, solidWord text = true := by decide
      exact .followedBy (sign (by decide)) (.followedBy (.run blank)
        (.followedBy (word (solid text castWord)).2
          (.followedBy (.run blank) (sign (by decide)))))
  · exact call (by decide)
  · exact call (by decide)
  · exact call (by decide)
  · exact ⟨.before (word (by decide)).1, .before (word (by decide)).2⟩
  · exact ⟨.before (.before (word (by decide)).1), .before (.before (word (by decide)).2)⟩

/-- What takes no sign ends before a comment at the latest. -/
theorem length_le_of_comment {rule : Lexeme} (plain : rule.Takes (· ∉ signs))
    {ahead body : List Char} {length : Nat} (taken : rule (ahead ++ '/' :: body) = some length) :
    length ≤ ahead.length := by
  by_contra far
  have mem : '/' ∈ (ahead ++ '/' :: body).take length := by
    rw [List.take_append, List.mem_append]
    right
    obtain ⟨more, extra⟩ := Nat.exists_eq_add_of_lt (Nat.lt_of_not_le far)
    rw [show length - ahead.length = more + 1 by omega, List.take_succ_cons]
    exact List.mem_cons_self
  exact (plain _ length taken).2 '/' mem (by decide)

/-! Text outside the tags -/

/-- Both texts start with the same text outside the tags and then have the same opening tag, if any. -/
structure SameOutside (text other : List Char) (html : Nat) (tag : Option Nat) : Prop where
  length : htmlLength text = html
  lengthToo : htmlLength other = html
  opening : openingTag (text.drop html) = tag
  openingToo : openingTag (other.drop html) = tag
  taken : text.take (html + tag.getD 0) = other.take (html + tag.getD 0)

theorem sameOutside_self (text : List Char) :
    ∃ html tag, SameOutside text text html tag ∧ html + tag.getD 0 ≤ text.length := by
  refine ⟨_, _, ⟨rfl, rfl, rfl, rfl, rfl⟩, ?_⟩
  have html := htmlLength_le text
  cases found : openingTag (text.drop (htmlLength text)) with
  | none => exact html
  | some length =>
      have bound := (openingTag_eq_some found).2.1
      rw [List.length_drop] at bound
      rw [Option.getD_some]
      omega

theorem sameOutside_code {body : List Char} (whole : code ('?' :: '>' :: body) = true)
    {tail other : List Char} (breaking : Breaks tail) (breakingToo : Breaks other) :
    ∃ html tag, SameOutside (body ++ tail) (body ++ other) html (some tag) ∧
      html + tag ≤ body.length ∧ code (body.drop (html + tag)) = true := by
  obtain ⟨tag, found, stop⟩ := code_closing whole
  obtain ⟨-, bound, rest, opened⟩ := openingTag_eq_some found
  have html := htmlLength_le body
  rw [List.length_drop] at bound
  have inside : htmlLength body + tag ≤ body.length := by omega
  have opening : ∀ {tail}, Breaks tail →
      openingTag ((body ++ tail).drop (htmlLength body)) = some tag := by
    intro tail breaking
    rw [List.drop_append_of_le_length html, openingTag_append _ breaking, found]
  refine ⟨htmlLength body, tag, ?_, inside, stop⟩
  refine ⟨htmlLength_append opened tail, htmlLength_append opened other, opening breaking,
    opening breakingToo, ?_⟩
  rw [Option.getD_some, List.take_append_of_le_length inside, List.take_append_of_le_length inside]

end Lexeme

/-- White space in a program and a comment to be put in its place. The white space stands behind whole
pieces, of which the first is the text outside the tags with the opening tag, and none of the rules
that look for white space by themselves looks into it. Where a class adapts the traits it uses, in
braces, these are closed before the gap. -/
structure Gap where
  before : List Char
  space : List Char
  /-- The comment, behind its opening mark. -/
  body : List Char
  after : List Char
  pieces : Lexeme.code ('?' :: '>' :: before) = true
  white : ∀ character ∈ space, isBlank character = true
  ascii : ∃ first ∈ space.head?, first.toNat < 0x80
  closed : Lexeme.blockComment body = some body.length
  apart : ∀ start ≤ before.length, Lexeme.code (before.drop start) = true →
    ∀ rule ∈ Lexeme.spacedRules, rule (before.drop start ++ (space ++ after)) =
      rule (before.drop start ++ ('/' :: '*' :: body ++ after))
  adapted : ∀ start ≤ before.length, Lexeme.code (before.drop start) = true →
    Lexeme.parted (before.take start) (before.drop start) = true →
    ∀ length ∈ Lexeme.keyword "use" (before.drop start),
      Lexeme.bracesClosed (Lexeme.behindNames (before.drop (start + length))) = true

namespace Gap

variable (gap : Gap)

def comment : List Char := '/' :: '*' :: gap.body

/-- The text with the white space. -/
def spaced : List Char := gap.before ++ (gap.space ++ gap.after)

/-- The text with the comment. -/
def commented : List Char := gap.before ++ (gap.comment ++ gap.after)

theorem breaks_space : Lexeme.Breaks (gap.space ++ gap.after) := by
  obtain ⟨first, starts, ascii⟩ := gap.ascii
  obtain ⟨rest, same⟩ := List.head?_eq_some_iff.mp starts
  have white : isBlank first = true := gap.white first (by simp [same])
  refine ⟨first, rest ++ gap.after, by rw [same]; rfl, Lexeme.mem_breaks_of_blank white ascii, ?_⟩
  rintro rfl
  cases white

theorem breaks_comment : Lexeme.Breaks (gap.comment ++ gap.after) :=
  ⟨'/', '*' :: (gap.body ++ gap.after), rfl, by decide, fun _ => rfl⟩

theorem space_pos : 0 < gap.space.length := by
  obtain ⟨first, starts, -⟩ := gap.ascii
  obtain ⟨rest, same⟩ := List.head?_eq_some_iff.mp starts
  simp [same]

/-- Offsets in the two texts that stand for the same place: in front of a piece before the gap, or
behind the gap. -/
inductive Place : Nat → Nat → Prop
  | ahead {start : Nat} (inside : start ≤ gap.before.length)
      (whole : Lexeme.code (gap.before.drop start) = true) : Place start start
  | behind {count : Nat} (inside : count ≤ gap.after.length) :
      Place (gap.before.length + (gap.space.length + count))
        (gap.before.length + (gap.comment.length + count))

variable {gap}

section Drops

variable {start count : Nat}

theorem spaced_ahead (inside : start ≤ gap.before.length) :
    gap.spaced.drop start = gap.before.drop start ++ (gap.space ++ gap.after) :=
  List.drop_append_of_le_length inside

theorem commented_ahead (inside : start ≤ gap.before.length) :
    gap.commented.drop start = gap.before.drop start ++ (gap.comment ++ gap.after) :=
  List.drop_append_of_le_length inside

theorem spaced_behind :
    gap.spaced.drop (gap.before.length + (gap.space.length + count)) = gap.after.drop count := by
  rw [spaced, ← List.drop_drop, List.drop_left, ← List.drop_drop, List.drop_left]

theorem commented_behind :
    gap.commented.drop (gap.before.length + (gap.comment.length + count)) =
      gap.after.drop count := by
  rw [commented, ← List.drop_drop, List.drop_left, ← List.drop_drop, List.drop_left]

end Drops

theorem Place.bounds {start place : Nat} (here : gap.Place start place) :
    start ≤ gap.spaced.length ∧ place ≤ gap.commented.length := by
  cases here <;> simp only [spaced, commented, List.length_append] <;> omega

theorem Place.settled {accepts : List Char → Bool} (settled : Lexeme.Settled accepts)
    {start place : Nat} (here : gap.Place start place) :
    accepts (gap.spaced.drop start) = accepts (gap.commented.drop place) := by
  cases here with
  | ahead inside whole =>
      rw [spaced_ahead inside, commented_ahead inside, settled _ _ gap.breaks_space,
        settled _ _ gap.breaks_comment]
  | behind inside => rw [spaced_behind, commented_behind]

/-- Both texts end at the same places. -/
theorem Place.isEmpty {start place : Nat} (here : gap.Place start place) :
    (gap.spaced.drop start).isEmpty = (gap.commented.drop place).isEmpty := by
  cases here with
  | ahead inside whole =>
      obtain ⟨first, rest, same, -⟩ := gap.breaks_space
      rw [spaced_ahead inside, commented_ahead inside, same]
      cases gap.before.drop start <;> rfl
  | behind inside => rw [spaced_behind, commented_behind]

/-- The white space or the comments at a place are skipped alike. -/
theorem Place.trivia {start place : Nat} (here : gap.Place start place) :
    gap.Place (start + Lexeme.trivia (gap.spaced.drop start))
        (place + Lexeme.trivia (gap.commented.drop place)) ∧
      (Lexeme.trivia (gap.spaced.drop start) = 0 ↔
        Lexeme.trivia (gap.commented.drop place) = 0) := by
  have behind : ∀ count, Lexeme.trivia (gap.after.drop count) + count ≤ gap.after.length ∨
      gap.after.length < count := by
    intro count
    have bound := Lexeme.triviaFrom_le 0 (gap.after.drop count)
    rw [List.length_drop] at bound
    rw [Lexeme.trivia]
    omega
  cases here with
  | @ahead start inside whole =>
      have across : Lexeme.trivia (gap.space ++ gap.after) =
          gap.space.length + Lexeme.trivia gap.after := Lexeme.trivia_space gap.white gap.after
      have acrossToo : Lexeme.trivia (gap.comment ++ gap.after) =
          gap.comment.length + Lexeme.trivia gap.after := Lexeme.trivia_comment gap.closed gap.after
      rw [spaced_ahead inside, commented_ahead inside]
      rcases Lexeme.trivia_code whole with all | ⟨length, shorter, stop, same⟩
      · rw [all, all, across, acrossToo, List.length_drop]
        have bound := (behind 0).resolve_right (Nat.not_lt_zero _)
        rw [List.drop_zero] at bound
        have front : ∀ size, start + (gap.before.length - start + (size + Lexeme.trivia gap.after)) =
            gap.before.length + (size + Lexeme.trivia gap.after) := by
          intro size
          omega
        rw [front, front]
        refine ⟨.behind bound, ?_⟩
        have long := gap.space_pos
        have longToo : 0 < gap.comment.length := Nat.succ_pos _
        omega
      · rw [same, same]
        rw [List.length_drop] at shorter
        refine ⟨.ahead (by omega) ?_, Iff.rfl⟩
        rwa [← List.drop_drop]
  | @behind count inside =>
      rw [spaced_behind, commented_behind, Nat.add_assoc, Nat.add_assoc, Nat.add_assoc,
        Nat.add_assoc]
      have bound := (behind count).resolve_right (Nat.not_lt.mpr inside)
      exact ⟨.behind (by omega), Iff.rfl⟩

/-- Behind a closing tag both texts have the same text outside the tags. -/
theorem Place.closing {start place length : Nat} (here : gap.Place start place)
    (marked : Lexeme.mark "?>".toList (gap.spaced.drop start) = some length) :
    ∃ html tag, Lexeme.SameOutside ((gap.spaced.drop start).drop length)
        ((gap.commented.drop place).drop length) html tag ∧
      gap.Place (start + (length + (html + tag.getD 0)))
        (place + (length + (html + tag.getD 0))) := by
  cases here with
  | ahead inside whole =>
      have solid : ∀ letter ∈ "?>".toList, letter ∉ Lexeme.breaks := by decide
      rw [spaced_ahead inside, Lexeme.mark_append solid _ gap.breaks_space] at marked
      obtain ⟨rfl, bound⟩ := Lexeme.mark_length marked
      have front := Lexeme.mark_eq_some marked
      have closing : Lexeme.code ('?' :: '>' :: (gap.before.drop start).drop 2) = true := by
        rw [front] at whole
        exact whole
      obtain ⟨html, tag, outside, further, stop⟩ :=
        Lexeme.sameOutside_code closing gap.breaks_space gap.breaks_comment
      refine ⟨html, some tag, ?_, ?_⟩
      · rw [spaced_ahead inside, commented_ahead inside, List.drop_append_of_le_length bound,
          List.drop_append_of_le_length bound]
        exact outside
      · change 2 ≤ _ at bound
        rw [List.length_drop] at bound
        rw [List.length_drop, List.length_drop] at further
        rw [List.drop_drop, List.drop_drop] at stop
        exact .ahead (show start + (2 + (html + tag)) ≤ _ by omega) stop
  | @behind count inside =>
      rw [spaced_behind] at marked
      obtain ⟨html, tag, outside, further⟩ :=
        Lexeme.sameOutside_self ((gap.after.drop count).drop length)
      have bound := (Lexeme.mark_length marked).2
      rw [List.length_drop] at bound
      simp only [List.length_drop] at further
      refine ⟨html, tag, ?_, ?_⟩
      · rw [spaced_behind, commented_behind]
        exact outside
      · rw [Nat.add_assoc, Nat.add_assoc, Nat.add_assoc, Nat.add_assoc]
        exact .behind (by omega)

variable (gap) in
/-- At every place the rule takes the same characters of both texts, at least one, and ends at a
place. -/
def Steps (rule : Lexeme) : Prop :=
  ∀ ⦃start place⦄, gap.Place start place →
    rule (gap.spaced.drop start) = rule (gap.commented.drop place) ∧
    ∀ length, rule (gap.spaced.drop start) = some length → 0 < length ∧
      (gap.spaced.drop start).take length = (gap.commented.drop place).take length ∧
      gap.Place (start + length) (place + length)

/-- Behind the gap there is one text, and before it a rule need only be looked at in the text up to
the gap. -/
theorem Steps.of_ahead {rule : Lexeme}
    (moves : ∀ text length, rule text = some length → 0 < length ∧ length ≤ text.length)
    (ahead : ∀ start ≤ gap.before.length, Lexeme.code (gap.before.drop start) = true →
      rule (gap.spaced.drop start) = rule (gap.commented.drop start) ∧
      ∀ length, rule (gap.spaced.drop start) = some length →
        length ≤ (gap.before.drop start).length ∧
        Lexeme.code ((gap.before.drop start).drop length) = true) : gap.Steps rule := by
  intro start place here
  cases here with
  | ahead inside whole =>
      obtain ⟨same, further⟩ := ahead start inside whole
      refine ⟨same, fun length taken => ⟨(moves _ length taken).1, ?_, ?_⟩⟩
      · obtain ⟨bound, -⟩ := further length taken
        rw [spaced_ahead inside, commented_ahead inside, List.take_append_of_le_length bound,
          List.take_append_of_le_length bound]
      · obtain ⟨bound, stop⟩ := further length taken
        rw [List.length_drop] at bound
        exact .ahead (by omega) (by rwa [← List.drop_drop])
  | behind inside =>
      rw [spaced_behind, commented_behind]
      refine ⟨rfl, fun length taken => ⟨(moves _ length taken).1, rfl, ?_⟩⟩
      have bound := (moves _ length taken).2
      rw [List.length_drop] at bound
      rw [Nat.add_assoc, Nat.add_assoc, Nat.add_assoc, Nat.add_assoc]
      exact .behind (by omega)

theorem steps_kept {rule : Lexeme} (kept : rule.Kept) : gap.Steps rule := by
  refine .of_ahead kept.moves fun start inside whole => ?_
  rw [spaced_ahead inside, commented_ahead inside, kept.settled _ _ whole gap.breaks_space,
    kept.settled _ _ whole gap.breaks_comment]
  exact ⟨rfl, fun length taken =>
    ⟨(kept.moves _ length taken).2, kept.whole _ length whole taken⟩⟩

theorem steps_spaced {rule : Lexeme} (known : rule ∈ Lexeme.spacedRules) : gap.Steps rule := by
  obtain ⟨positive, plain⟩ := Lexeme.spacedRules_plain known
  refine .of_ahead (fun text length taken =>
    ⟨positive text length taken, (plain text length taken).1⟩) fun start inside whole => ?_
  have same := gap.apart start inside whole rule known
  rw [spaced_ahead inside, commented_ahead inside]
  refine ⟨same, fun length taken => ?_⟩
  have bound : length ≤ (gap.before.drop start).length :=
    Lexeme.length_le_of_comment plain (same.symm.trans taken)
  have signs := (plain _ length taken).2
  rw [List.take_append_of_le_length bound] at signs
  exact ⟨bound, Lexeme.code_drop_plain whole length signs⟩

/-! Where traits are adapted -/

variable (gap) in
/-- No word goes on at the offset of the text with the white space. -/
def Parted (start : Nat) : Prop :=
  Lexeme.parted (gap.spaced.take start) (gap.spaced.drop start) = true

variable (gap) in
/-- If a list of names goes on here and is followed by braces, these are closed before the gap. -/
def BracesClosed (start : Nat) : Prop :=
  start ≤ gap.before.length →
    Lexeme.bracesClosed (Lexeme.behindNames (gap.before.drop start)) = true

/-- Before the gap, what keeps the end of the names keeps what is said of the braces behind them. -/
theorem BracesClosed.of_ahead {start place length : Nat} (here : gap.Place start place)
    (closed : gap.BracesClosed start)
    (same : Lexeme.code (gap.before.drop start) = true →
      gap.spaced.drop start = gap.before.drop start ++ (gap.space ++ gap.after) →
      start + length ≤ gap.before.length →
      Lexeme.behindNames ((gap.before.drop start).drop length) =
        Lexeme.behindNames (gap.before.drop start)) :
    gap.BracesClosed (start + length) := by
  intro inside
  cases here with
  | ahead _ whole =>
      have before : start ≤ gap.before.length := by omega
      rw [← List.drop_drop, same whole (spaced_ahead before) inside]
      exact closed before
  | behind => 
      have long := gap.space_pos
      omega

theorem parted_trivia {start : Nat} (parted : gap.Parted start) :
    gap.Parted (start + Lexeme.trivia (gap.spaced.drop start)) := by
  have next := Lexeme.parted_trivia parted
  rwa [← List.take_add, List.drop_drop] at next

theorem bracesClosed_trivia {start place : Nat} (here : gap.Place start place)
    (closed : gap.BracesClosed start) :
    gap.BracesClosed (start + Lexeme.trivia (gap.spaced.drop start)) := by
  refine .of_ahead here closed fun whole same _ => ?_
  rw [same]
  exact Lexeme.behindNames_trivia whole _

theorem bracesClosed_kept {rule : Lexeme} (kept : rule.Kept)
    (names : ∀ {text length}, rule text = some length →
      Lexeme.behindNames (text.drop length) = Lexeme.behindNames text)
    {start place length : Nat} (here : gap.Place start place) (closed : gap.BracesClosed start)
    (taken : rule (gap.spaced.drop start) = some length) : gap.BracesClosed (start + length) := by
  refine .of_ahead here closed fun whole same _ => names ?_
  rw [same, kept.settled _ _ whole gap.breaks_space] at taken
  exact taken

/-- Behind the word `use`. -/
theorem bracesClosed_use {start place length : Nat} (here : gap.Place start place)
    (parted : gap.Parted start)
    (taken : Lexeme.keyword "use" (gap.spaced.drop start) = some length) :
    gap.BracesClosed (start + length) := by
  intro inside
  cases here with
  | ahead bound whole =>
      have kept : (Lexeme.keyword "use").Kept := Lexeme.kept_keyword (by decide)
      rw [spaced_ahead bound, kept.settled _ _ whole gap.breaks_space] at taken
      refine gap.adapted start bound whole ?_ length taken
      obtain ⟨first, others, same⟩ : ∃ first others, gap.before.drop start = first :: others := by
        refine List.exists_cons_of_ne_nil fun none' => ?_
        rw [none'] at taken
        cases taken
      rw [Parted, spaced_ahead bound, spaced, List.take_append_of_le_length bound, same] at parted
      rw [same]
      exact parted
  | behind =>
      have long := gap.space_pos
      omega

/-- The braces in which a class adapts traits. -/
theorem Place.adaptations {start place : Nat} (here : gap.Place start place)
    (closed : gap.BracesClosed start) :
    Lexeme.traitAdaptations (gap.spaced.drop start) =
        Lexeme.traitAdaptations (gap.commented.drop place) ∧
      ∀ length, Lexeme.traitAdaptations (gap.spaced.drop start) = some length →
        0 < length ∧ gap.Place (start + length) (place + length) := by
  have positive : Lexeme.traitAdaptations.Positive := .followedBy_left .one
  cases here with
  | ahead inside whole =>
      rw [spaced_ahead inside, commented_ahead inside]
      by_cases opens : Lexeme.startsWith (· == '\x7b') (gap.before.drop start) = true
      · obtain ⟨first, rest, same, brace⟩ := Lexeme.startsWith_cons opens
        have ends : Lexeme.endsNames (gap.before.drop start) = true := by
          rw [same, beq_iff_eq.mp brace]
          rfl
        have braces := closed inside
        rw [Lexeme.behindNames_self ends, Lexeme.bracesClosed, opens, Bool.not_true, Bool.false_or,
          Option.any_eq_true] at braces
        obtain ⟨length, found, stop⟩ := braces
        obtain ⟨bound, further⟩ := Lexeme.closed_traitAdaptations _ length found
        rw [further, further]
        refine ⟨rfl, fun size taken => ?_⟩
        cases taken
        rw [List.length_drop] at bound
        exact ⟨positive _ length found, .ahead (by omega) (by rwa [← List.drop_drop])⟩
      · have none' : ∀ {tail}, Lexeme.Breaks tail →
            Lexeme.traitAdaptations (gap.before.drop start ++ tail) = none := by
          intro tail breaking
          have shut : Lexeme.startsWith (· == '\x7b') (gap.before.drop start ++ tail) = false := by
            rw [Lexeme.settled_startsWith (by decide) _ tail breaking]
            exact Bool.eq_false_iff.mpr opens
          exact Lexeme.traitAdaptations_of_shut shut
        rw [none' gap.breaks_space, none' gap.breaks_comment]
        exact ⟨rfl, nofun⟩
  | behind inside =>
      rw [spaced_behind, commented_behind]
      refine ⟨rfl, fun length taken => ⟨positive _ length taken, ?_⟩⟩
      have bound := (Lexeme.closed_traitAdaptations _ length taken).1
      rw [List.length_drop] at bound
      rw [Nat.add_assoc, Nat.add_assoc, Nat.add_assoc, Nat.add_assoc]
      exact .behind (by omega)

end Gap

end PhpAudit
