import PhpAudit.Proofs.LoopHeaders

/-!
The pieces of a text between the tags: comments, texts in quotes, heredocs, attributes, closing tags
with all that stands up to the next opening tag, and single characters. Where a text is made up of
whole pieces, the rules of the language see no difference between two continuations of it of which
one starts with white space and the other one with a comment.
-/

namespace PhpAudit

namespace Lexeme

/-- The length of a line comment that ends inside the text. -/
def closedLine (body : List Char) : Option Nat :=
  if lineComment body < body.length then some (lineComment body) else none

/-- A closing tag with the text outside the tags and the next opening tag. -/
def closingPiece : Lexeme :=
  followedBy (mark "?>".toList) fun rest =>
    followedBy (fun html => some (htmlLength html)) openingTag rest

/-- The length of the piece at the start of a text; none if the piece does not end in the text. -/
def piece : Lexeme
  | [] => none
  | character :: rest =>
      if character == '#' then
        if rest.head? == some '[' then attributeGroup (character :: rest)
        else (closedLine rest).map (· + 1)
      else if character == '/' then
        match rest with
        | [] => none
        | second :: body =>
            if second == '/' then (closedLine body).map (· + 2)
            else if second == '*' then (blockComment body).map (· + 2)
            else some 1
      else if character == '\'' || character == '"' || character == '\x60' then
        string (character :: rest)
      else if character == '?' && rest.head? == some '>' then closingPiece (character :: rest)
      else if character == '<' && (mark "<<".toList rest).isSome then heredoc (character :: rest)
      else some 1

/-- The text is made up of whole pieces, the first of which has been entered already up to a number
of characters before its end. -/
def codeFrom (known : Nat) : List Char → Bool
  | [] => known == 0
  | character :: rest =>
      match known with
      | more + 1 => codeFrom more rest
      | 0 =>
          match piece (character :: rest) with
          | some (more + 1) => codeFrom more rest
          | _ => false

/-- The text is made up of whole pieces. -/
def code (text : List Char) : Bool := codeFrom 0 text

theorem codeFrom_iff (known : Nat) (text : List Char) :
    codeFrom known text = true ↔ known ≤ text.length ∧ code (text.drop known) = true := by
  induction text generalizing known with
  | nil => cases known <;> simp [codeFrom, code]
  | cons character rest ih =>
      cases known with
      | zero => simp [code]
      | succ more => simp [codeFrom, ih]

theorem code_cons {character : Char} {rest : List Char} (whole : code (character :: rest) = true) :
    ∃ more, piece (character :: rest) = some (more + 1) ∧ more ≤ rest.length ∧
      code (rest.drop more) = true := by
  simp only [code, codeFrom] at whole
  split at whole
  · rename_i more first
    exact ⟨more, first, (codeFrom_iff more rest).mp whole⟩
  · cases whole

/-- What holds of the empty text, and of a text whenever it holds behind its first piece, holds of
every text of whole pieces. -/
theorem code_induction {motive : (text : List Char) → code text = true → Prop}
    (nil : motive [] rfl)
    (step : ∀ character rest more (whole : code (character :: rest) = true)
      (behind : code (rest.drop more) = true), piece (character :: rest) = some (more + 1) →
      more ≤ rest.length → motive (rest.drop more) behind → motive (character :: rest) whole)
    (text : List Char) (whole : code text = true) : motive text whole := by
  induction size : text.length using Nat.strongRecOn generalizing text with
  | ind length ih =>
      cases text with
      | nil => exact nil
      | cons character rest =>
          obtain ⟨more, first, bound, behind⟩ := code_cons whole
          refine step character rest more whole behind first bound ?_
          refine ih (rest.drop more).length ?_ (rest.drop more) behind rfl
          rw [← size, List.length_drop, List.length_cons]
          omega

/-! Trivia in front of a continuation -/

theorem triviaFrom_eq (known : Nat) (text : List Char) (bound : known ≤ text.length) :
    triviaFrom known text = known + trivia (text.drop known) := by
  induction text generalizing known with
  | nil =>
      obtain rfl : known = 0 := Nat.le_zero.mp bound
      rfl
  | cons character rest ih =>
      cases known with
      | zero => simp [trivia]
      | succ more =>
          have step : triviaFrom (more + 1) (character :: rest) = triviaFrom more rest + 1 := rfl
          rw [step, ih more (Nat.le_of_succ_le_succ bound), List.drop_succ_cons]
          omega

/-- What is trivia as a whole continues with the trivia behind it. -/
theorem trivia_item {text : List Char} {more : Nat} (item : triviaItem text = more + 1)
    (bound : more + 1 ≤ text.length) : trivia text = more + 1 + trivia (text.drop (more + 1)) := by
  cases text with
  | nil => cases item
  | cons character rest =>
      rw [trivia]
      unfold triviaFrom
      rw [item]
      simp only [triviaFrom_eq more rest (Nat.le_of_succ_le_succ bound), List.drop_succ_cons]
      omega

theorem trivia_zero {text : List Char} (item : triviaItem text = 0) : trivia text = 0 := by
  cases text with
  | nil => rfl
  | cons character rest =>
      rw [trivia]
      unfold triviaFrom
      rw [item]

theorem lineComment_le (body : List Char) : lineComment body ≤ body.length := by
  induction body with
  | nil => exact Nat.le_refl 0
  | cons character rest ih =>
      simp only [lineComment, List.length_cons]
      split
      · exact Nat.zero_le _
      · split <;> omega

/-- A line comment that ends inside a text does not see what follows the text. -/
theorem lineComment_append {body : List Char} (closed : lineComment body < body.length)
    (tail : List Char) : lineComment (body ++ tail) = lineComment body := by
  induction body with
  | nil => cases closed
  | cons character rest ih =>
      simp only [List.cons_append, lineComment] at closed ⊢
      by_cases line : (character == '\n') = true
      · simp [line]
      · simp only [line, Bool.false_eq_true, if_false] at closed ⊢
        cases rest with
        | nil =>
            simp only [List.head?_nil] at closed
            simp [lineComment] at closed
        | cons second others =>
            simp only [List.cons_append, List.head?_cons] at closed ih ⊢
            by_cases tag : (character == '?' && some second == some '>') = true
            · simp only [tag, if_true]
            · simp only [tag, Bool.false_eq_true, if_false, List.length_cons] at closed ih ⊢
              rw [ih (by omega)]

/-- The rule does not see what follows a text in which it finds an end. -/
def Closed (rule : Lexeme) : Prop :=
  ∀ text length, rule text = some length →
    length ≤ text.length ∧ ∀ tail, rule (text ++ tail) = some length

theorem closed_blockComment : blockComment.Closed := by
  intro body
  induction body with
  | nil => intro length taken; cases taken
  | cons character rest ih =>
      intro length taken
      simp only [blockComment] at taken
      by_cases ends : (character == '*' && rest.head? == some '/') = true
      · simp only [ends, if_true, Option.some.injEq] at taken
        subst taken
        cases rest with
        | nil => simp at ends
        | cons second others =>
            refine ⟨by simp, fun tail => ?_⟩
            rw [List.head?_cons] at ends
            rw [List.cons_append, List.cons_append, blockComment, List.head?_cons, if_pos ends]
      · simp only [ends, Bool.false_eq_true, if_false] at taken
        obtain ⟨shorter, others, rfl⟩ := Option.map_eq_some_iff.mp taken
        obtain ⟨bound, further⟩ := ih shorter others
        refine ⟨Nat.succ_le_succ bound, fun tail => ?_⟩
        cases rest with
        | nil => cases others
        | cons second more =>
            have next := further tail
            simp only [List.cons_append, List.head?_cons] at ends next ⊢
            rw [blockComment, List.head?_cons, if_neg ends, next]
            rfl

/-- A piece is trivia as a whole, or no trivia starts with it, whatever follows the text. -/
theorem triviaItem_piece {character : Char} {rest : List Char} {length : Nat}
    (first : piece (character :: rest) = some length) :
    (∀ tail, triviaItem (character :: (rest ++ tail)) = length) ∨
      ∀ tail, triviaItem (character :: (rest ++ tail)) = 0 := by
  by_cases white : isBlank character = true
  · have plain : piece (character :: rest) = some 1 := by
      have sign : ∀ other : Char, isBlank other = false → character ≠ other := by
        intro other dark same
        rw [same, dark] at white
        cases white
      simp [piece, sign '#' rfl, sign '/' rfl, sign '\'' rfl, sign '"' rfl, sign '\x60' rfl,
        sign '?' rfl, sign '<' rfl]
    rw [plain] at first
    cases first
    exact .inl fun tail => by simp [triviaItem, white]
  by_cases hash : character = '#'
  · subst hash
    simp only [piece, beq_self_eq_true, if_true] at first
    simp only [triviaItem, beq_self_eq_true, if_true, show isBlank '#' = false from rfl,
      Bool.false_eq_true, if_false]
    cases rest with
    | nil => simp [closedLine, lineComment] at first
    | cons second body =>
        simp only [List.cons_append, List.head?_cons] at first ⊢
        by_cases bracket : (some second == some '[') = true
        · exact .inr fun tail => if_pos bracket
        · simp only [bracket, Bool.false_eq_true, if_false] at first ⊢
          obtain ⟨size, line, rfl⟩ := Option.map_eq_some_iff.mp first
          simp only [closedLine] at line
          split at line
          · rename_i closed
            cases line
            exact .inl fun tail => congrArg (· + 1) (lineComment_append closed tail)
          · cases line
  by_cases slash : character = '/'
  · subst slash
    cases rest with
    | nil => cases first
    | cons second body =>
        simp only [piece, show ('/' == '#') = false from rfl, Bool.false_eq_true, if_false,
          beq_self_eq_true, if_true] at first
        simp only [triviaItem, show isBlank '/' = false from rfl, show ('/' == '#') = false from rfl,
          Bool.false_eq_true, if_false, beq_self_eq_true, if_true, List.cons_append]
        by_cases line : (second == '/') = true
        · simp only [line, if_true] at first ⊢
          obtain ⟨size, closed, rfl⟩ := Option.map_eq_some_iff.mp first
          simp only [closedLine] at closed
          split at closed
          · rename_i inside
            cases closed
            exact .inl fun tail => congrArg (· + 2) (lineComment_append inside tail)
          · cases closed
        · simp only [line, Bool.false_eq_true, if_false] at first ⊢
          by_cases block : (second == '*') = true
          · simp only [block, if_true] at first ⊢
            obtain ⟨size, closed, rfl⟩ := Option.map_eq_some_iff.mp first
            refine .inl fun tail => ?_
            rw [(closed_blockComment body size closed).2 tail]
          · simp only [block, Bool.false_eq_true, if_false]
            exact .inr fun _ => trivial
  · exact .inr fun tail => by simp [triviaItem, white, hash, slash]

theorem trivia_piece {character : Char} {rest tail : List Char} {more : Nat}
    (item : triviaItem (character :: (rest ++ tail)) = more + 1) (bound : more ≤ rest.length) :
    trivia (character :: rest ++ tail) = more + 1 + trivia (rest.drop more ++ tail) := by
  have long : more + 1 ≤ (character :: (rest ++ tail)).length := by
    simp only [List.length_cons, List.length_append]
    omega
  rw [List.cons_append, trivia_item item long, List.drop_succ_cons,
    List.drop_append_of_le_length bound]

/-- A text of whole pieces is all trivia, or the trivia in it ends at a piece that is none, whatever
follows the text. -/
theorem trivia_code {text : List Char} (whole : code text = true) :
    (∀ tail, trivia (text ++ tail) = text.length + trivia tail) ∨
      ∃ length, length < text.length ∧ code (text.drop length) = true ∧
        ∀ tail, trivia (text ++ tail) = length := by
  induction text, whole using code_induction with
  | nil => exact .inl fun tail => by simp
  | step character rest more whole behind first bound ih =>
    rcases triviaItem_piece first with item | item
    · -- The piece is trivia, so what is said of the text behind it is said of the whole text.
      have next := fun tail => trivia_piece (item tail) bound
      rcases ih with all | ⟨length, inside, stop, same⟩
      · refine .inl fun tail => ?_
        rw [next tail, all tail, List.length_drop, List.length_cons]
        omega
      · rw [List.length_drop] at inside
        refine .inr ⟨more + 1 + length, ?_, ?_, fun tail => ?_⟩
        · rw [List.length_cons]
          omega
        · rw [Nat.add_right_comm, List.drop_succ_cons, ← List.drop_drop]
          exact stop
        · rw [next tail, same tail]
    · exact .inr ⟨0, Nat.succ_pos _, whole, fun tail => trivia_zero (item tail)⟩

theorem trivia_space {space : List Char} (white : ∀ character ∈ space, isBlank character = true)
    (after : List Char) : trivia (space ++ after) = space.length + trivia after := by
  induction space with
  | nil => simp
  | cons character rest ih =>
      have item : triviaItem (character :: (rest ++ after)) = 0 + 1 := by
        simp [triviaItem, white character List.mem_cons_self]
      rw [List.cons_append, trivia_item item (Nat.succ_pos _), List.drop_succ_cons, List.drop_zero,
        ih fun other mem => white other (List.mem_cons_of_mem character mem), List.length_cons]
      omega

theorem trivia_comment {body : List Char} (closed : blockComment body = some body.length)
    (after : List Char) :
    trivia ('/' :: '*' :: body ++ after) = ('/' :: '*' :: body).length + trivia after := by
  have item : triviaItem ('/' :: '*' :: body ++ after) = body.length + 1 + 1 := by
    simp only [List.cons_append, triviaItem, show isBlank '/' = false from rfl,
      show ('/' == '#') = false from rfl, show ('*' == '/') = false from rfl, Bool.false_eq_true,
      if_false, beq_self_eq_true, if_true]
    rw [(closed_blockComment body body.length closed).2 after]
  rw [trivia_item item (by simp)]
  simp

/-! Texts that start with a break -/

/-- The characters that end every name and every mark before them: those white ones that no name may
hold, and the slash of a comment. -/
def breaks : List Char := ['/', '\t', '\n', '\x0b', '\x0c', '\r', ' ']

/-- The characters with which a piece of more than one character may start. -/
def signs : List Char := ['#', '/', '\'', '"', '\x60', '?', '<']

/-- The text starts with white space or with a comment. -/
def Breaks (text : List Char) : Prop :=
  ∃ first rest, text = first :: rest ∧ first ∈ breaks ∧ (first = '/' → rest.head? = some '*')

/-- The rule takes no more than there is, and only characters of this kind. -/
def Takes (good : Char → Prop) (rule : Lexeme) : Prop :=
  ∀ text length, rule text = some length →
    length ≤ text.length ∧ ∀ character ∈ text.take length, good character

/-- A rule that takes no sign, and that sees no difference between the end of the text and a break. -/
structure Solid (rule : Lexeme) : Prop where
  settled : ∀ ahead tail, Breaks tail → rule (ahead ++ tail) = rule ahead
  taken : rule.Takes (· ∉ signs)

/-- The test holds of no sign and of no break. -/
def solidTest (test : Char → Bool) : Bool := (breaks ++ signs).all fun character => !test character

section Tests

variable {test : Char → Bool} {character : Char}

theorem solidTest_break (solid : solidTest test = true) (mem : character ∈ breaks) :
    test character = false := by
  have all := List.all_eq_true.mp solid character (List.mem_append_left signs mem)
  simpa using all

theorem solidTest_sign (solid : solidTest test = true) (holds : test character = true) :
    character ∉ signs := by
  intro mem
  have all := List.all_eq_true.mp solid character (List.mem_append_right breaks mem)
  simp [holds] at all

end Tests

/-- A test of what follows a rule that sees no difference between the end of the text and a break. -/
def Settled (accepts : List Char → Bool) : Prop :=
  ∀ ahead tail, Breaks tail → accepts (ahead ++ tail) = accepts ahead

theorem settled_startsWith {test : Char → Bool}
    (apart : ∀ character ∈ breaks, test character = false) : Settled (startsWith test) := by
  rintro ahead tail ⟨first, rest, rfl, mem, -⟩
  cases ahead with
  | nil => simp [startsWith, apart first mem]
  | cons character others => rfl

theorem Settled.not {accepts : List Char → Bool} (settled : Settled accepts) :
    Settled fun rest => !accepts rest := by
  intro ahead tail breaking
  simp only [settled ahead tail breaking]

theorem before_eq_some {rule : Lexeme} {accepts : List Char → Bool} {text : List Char} {length : Nat} :
    before rule accepts text = some length ↔
      rule text = some length ∧ accepts (text.drop length) = true := by
  simp only [before]
  cases found : rule text with
  | none => simp
  | some size =>
      by_cases accepted : accepts (text.drop size) = true
      · simp only [accepted, if_true, Option.some.injEq]
        exact ⟨fun same => ⟨same, same ▸ accepted⟩, fun both => both.1⟩
      · simp only [accepted, Bool.false_eq_true, if_false, reduceCtorEq, Option.some.injEq, false_iff]
        rintro ⟨rfl, accepted'⟩
        exact accepted accepted'

namespace Takes

variable {good : Char → Prop} {test : Char → Bool} {first second : Lexeme}

theorem one (only : ∀ character, test character = true → good character) :
    (one test).Takes good := by
  intro text length taken
  cases text with
  | nil => cases taken
  | cons character rest =>
      simp only [Lexeme.one] at taken
      split at taken
      · rename_i holds
        cases taken
        simpa using only character holds
      · cases taken

/-- A rule that counts characters from the start of the text. -/
theorem counted {count : List Char → Nat} (empty : count [] = 0)
    (step : ∀ character rest, count (character :: rest) = 0 ∨
      (good character ∧ count (character :: rest) = count rest + 1)) :
    Takes good fun text => some (count text) := by
  intro text length taken
  cases taken
  induction text with
  | nil => simp [empty]
  | cons character rest ih =>
      rcases step character rest with zero | ⟨kind, more⟩
      · simp [zero]
      · rw [more]
        refine ⟨Nat.succ_le_succ ih.1, fun other mem => ?_⟩
        rcases List.mem_cons.mp mem with rfl | mem
        · exact kind
        · exact ih.2 other mem

theorem run (only : ∀ character, test character = true → good character) :
    (run test).Takes good := by
  refine counted rfl fun character rest => ?_
  by_cases holds : test character = true
  · exact .inr ⟨only character holds, by simp [holds]⟩
  · exact .inl (by simp [holds])

theorem nameTail {start part : Char → Bool} (slash : good '\\')
    (only : ∀ character, part character = true → good character) :
    Takes good fun text => some (nameTail start part text) := by
  refine counted rfl fun character rest => ?_
  simp only [Lexeme.nameTail]
  split
  · rename_i holds
    exact .inr ⟨only character holds, rfl⟩
  · split
    · rename_i joined
      simp only [Bool.and_eq_true, beq_iff_eq] at joined
      exact .inr ⟨joined.1 ▸ slash, rfl⟩
    · exact .inl rfl

/-- A rule that compares character by character. -/
theorem pairwise {rule : List Char → Lexeme} {fits : Char → Char → Bool}
    (empty : ∀ text, rule [] text = some 0) (ended : ∀ first more, rule (first :: more) [] = none)
    (step : ∀ first more character rest, rule (first :: more) (character :: rest) =
      if fits first character then (rule more rest).map (· + 1) else none)
    {expected : List Char}
    (only : ∀ letter ∈ expected, ∀ character, fits letter character = true → good character) :
    (rule expected).Takes good := by
  intro text length taken
  refine ⟨(length_of_pairwise empty ended step taken).2, ?_⟩
  induction expected generalizing text length with
  | nil =>
      rw [empty] at taken
      cases taken
      simp
  | cons first more ih =>
      cases text with
      | nil =>
          rw [ended] at taken
          cases taken
      | cons character rest =>
          rw [step] at taken
          split at taken
          · rename_i holds
            obtain ⟨shorter, others, rfl⟩ := Option.map_eq_some_iff.mp taken
            intro other mem
            rcases List.mem_cons.mp mem with rfl | mem
            · exact only first List.mem_cons_self other holds
            · exact ih (fun letter mem => only letter (List.mem_cons_of_mem first mem)) rest
                shorter others other mem
          · cases taken

theorem letters {expected : List Char}
    (only : ∀ letter ∈ expected, ∀ character, foldsTo letter character = true → good character) :
    (letters expected).Takes good :=
  pairwise (fun _ => by rw [Lexeme.letters]) (fun _ _ => by rw [Lexeme.letters])
    (fun _ _ _ _ => by rw [Lexeme.letters]) only

theorem followedBy (before : first.Takes good) (behind : second.Takes good) :
    (followedBy first second).Takes good := by
  intro text length taken
  simp only [Lexeme.followedBy] at taken
  split at taken
  · rename_i size start
    obtain ⟨more, rest, rfl⟩ := Option.map_eq_some_iff.mp taken
    have front := before text size start
    have back := behind (text.drop size) more rest
    rw [List.length_drop] at back
    refine ⟨by omega, fun character mem => ?_⟩
    rw [List.take_add, List.mem_append] at mem
    exact mem.elim (front.2 character) (back.2 character)
  · cases taken

theorem either (before : first.Takes good) (behind : second.Takes good) :
    (either first second).Takes good := by
  intro text length taken
  simp only [Lexeme.either] at taken
  split at taken
  · cases taken
    exact before text length ‹_›
  · exact behind text length taken

theorem anyOf {rules : List Lexeme} (each : ∀ rule ∈ rules, rule.Takes good) :
    (anyOf rules).Takes good := by
  intro text length taken
  obtain ⟨rule, mem, found⟩ := List.exists_of_findSome?_eq_some taken
  exact each rule mem text length found

theorem perhaps (takes : first.Takes good) : (perhaps first).Takes good := by
  intro text length taken
  simp only [Lexeme.perhaps] at taken
  split at taken
  · cases taken
    exact takes text length ‹_›
  · cases taken
    simp

theorem before {accepts : List Char → Bool} (takes : first.Takes good) :
    (before first accepts).Takes good :=
  fun text length taken => takes text length (before_eq_some.mp taken).1

end Takes

namespace Solid

theorem one {test : Char → Bool} (solid : solidTest test = true) : (one test).Solid where
  settled := by
    rintro ahead tail ⟨first, rest, rfl, mem, -⟩
    cases ahead with
    | nil => simp [Lexeme.one, solidTest_break solid mem]
    | cons character others => rfl
  taken := .one fun _ => solidTest_sign solid

/-- A rule that counts characters from the start of the text. -/
theorem counted {count : List Char → Nat} (empty : count [] = 0)
    (stops : ∀ first rest, first ∈ breaks → count (first :: rest) = 0)
    (step : ∀ character rest, count (character :: rest) = 0 ∨
      count (character :: rest) = count rest + 1)
    (settled : ∀ character others tail, Breaks tail →
      (count (character :: (others ++ tail)) = 0 ↔ count (character :: others) = 0))
    (ahead tail : List Char) (breaking : Breaks tail) : count (ahead ++ tail) = count ahead := by
  induction ahead with
  | nil =>
      obtain ⟨first, rest, rfl, mem, -⟩ := breaking
      rw [List.nil_append, stops first rest mem, empty]
  | cons character others ih =>
      have same := settled character others tail breaking
      rcases step character (others ++ tail) with zero | more
      · rw [List.cons_append, zero, same.mp zero]
      · rcases step character others with zero | moreToo
        · rw [List.cons_append, same.mpr zero, zero]
        · rw [List.cons_append, more, moreToo, ih]

theorem run {test : Char → Bool} (solid : solidTest test = true) : (run test).Solid where
  settled := by
    intro ahead tail breaking
    refine congrArg some (@counted (fun text => (text.takeWhile test).length) rfl
      (fun first rest mem => ?_) (fun character rest => ?_) (fun character others tail _ => ?_)
      ahead tail breaking)
    · simp [solidTest_break solid mem]
    · by_cases holds : test character = true <;> simp [holds]
    · by_cases holds : test character = true <;> simp [holds]
  taken := .run fun _ => solidTest_sign solid

theorem nameTail {start part : Char → Bool} (solidStart : solidTest start = true)
    (solidPart : solidTest part = true) :
    Solid fun text => some (nameTail start part text) where
  settled := by
    have slash : ∀ character : Char, character ∈ breaks → (character == '\\') = false := by decide
    have settled := settled_startsWith fun _ mem => solidTest_break solidStart mem
    intro ahead tail breaking
    refine congrArg some (counted rfl (fun first rest mem => ?_) (fun character rest => ?_)
      (fun character others tail breaking => ?_) ahead tail breaking)
    · simp [Lexeme.nameTail, solidTest_break solidPart mem, slash first mem]
    · simp only [Lexeme.nameTail]
      split
      · exact .inr rfl
      · split
        · exact .inr rfl
        · exact .inl rfl
    · simp only [Lexeme.nameTail, settled others tail breaking]
      split
      · simp
      · split <;> simp
  taken := .nameTail (by decide) fun _ => solidTest_sign solidPart

/-- A rule that compares character by character. -/
theorem pairwise {rule : List Char → Lexeme} {fits : Char → Char → Bool}
    (empty : ∀ text, rule [] text = some 0) (ended : ∀ first more, rule (first :: more) [] = none)
    (step : ∀ first more character rest, rule (first :: more) (character :: rest) =
      if fits first character then (rule more rest).map (· + 1) else none)
    {expected : List Char} (solid : ∀ letter ∈ expected, solidTest (fits letter) = true) :
    (rule expected).Solid where
  settled := by
    intro ahead tail breaking
    induction expected generalizing ahead with
    | nil => rw [empty, empty]
    | cons first more ih =>
        cases ahead with
        | nil =>
            obtain ⟨character, rest, rfl, mem, -⟩ := breaking
            rw [List.nil_append, step, ended,
              solidTest_break (solid first List.mem_cons_self) mem]
            rfl
        | cons character rest =>
            have others := ih (fun letter mem => solid letter (List.mem_cons_of_mem first mem)) rest
            rw [List.cons_append, step, step, others]
  taken := .pairwise empty ended step fun letter mem _ => solidTest_sign (solid letter mem)

theorem mark {expected : List Char} (solid : ∀ letter ∈ expected, solidTest (· == letter) = true) :
    (mark expected).Solid :=
  pairwise (fun _ => by rw [Lexeme.mark]) (fun _ _ => by rw [Lexeme.mark])
    (fun _ _ _ _ => by rw [Lexeme.mark]) solid

theorem letters {expected : List Char}
    (solid : ∀ letter ∈ expected, solidTest (foldsTo letter) = true) : (letters expected).Solid :=
  pairwise (fun _ => by rw [Lexeme.letters]) (fun _ _ => by rw [Lexeme.letters])
    (fun _ _ _ _ => by rw [Lexeme.letters]) solid

variable {first second : Lexeme}

theorem followedBy (before : first.Solid) (behind : second.Solid) :
    (followedBy first second).Solid where
  settled := by
    intro ahead tail breaking
    simp only [Lexeme.followedBy, before.settled ahead tail breaking]
    cases taken : first ahead with
    | none => rfl
    | some length =>
        have bound := (before.taken ahead length taken).1
        simp only [List.drop_append_of_le_length bound, behind.settled _ tail breaking]
  taken := .followedBy before.taken behind.taken

theorem either (before : first.Solid) (behind : second.Solid) : (either first second).Solid where
  settled := by
    intro ahead tail breaking
    simp only [Lexeme.either, before.settled ahead tail breaking,
      behind.settled ahead tail breaking]
  taken := .either before.taken behind.taken

theorem anyOf {rules : List Lexeme} (solid : ∀ rule ∈ rules, rule.Solid) : (anyOf rules).Solid where
  settled := by
    intro ahead tail breaking
    simp only [Lexeme.anyOf]
    induction rules with
    | nil => rfl
    | cons rule others ih =>
        have rest := ih fun other mem => solid other (List.mem_cons_of_mem rule mem)
        simp only [List.findSome?_cons, rest,
          (solid rule List.mem_cons_self).settled ahead tail breaking]
  taken := .anyOf fun rule mem => (solid rule mem).taken

theorem perhaps (solid : first.Solid) : (perhaps first).Solid where
  settled := by
    intro ahead tail breaking
    simp only [Lexeme.perhaps, solid.settled ahead tail breaking]
  taken := .perhaps solid.taken

theorem before {accepts : List Char → Bool} (solid : first.Solid) (settled : Settled accepts) :
    (before first accepts).Solid where
  settled := by
    intro ahead tail breaking
    simp only [Lexeme.before, solid.settled ahead tail breaking]
    cases taken : first ahead with
    | none => rfl
    | some length =>
        have bound := (solid.taken ahead length taken).1
        simp only [List.drop_append_of_le_length bound, settled _ tail breaking]
  taken := .before solid.taken

end Solid

end Lexeme

end PhpAudit
