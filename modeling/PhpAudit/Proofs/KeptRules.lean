import PhpAudit.Proofs.Pieces
import PhpAudit.Reader.Expression

/-!
The rules of the language on texts made up of whole pieces: words, names, numbers and marks. Each of
them takes whole pieces, and it takes the same ones whether the text ends there or goes on with a
break.
-/

namespace PhpAudit

namespace Lexeme

/-- A rule that takes whole pieces of a text of such pieces, the same ones before every break. -/
structure Kept (rule : Lexeme) : Prop where
  moves : ∀ text length, rule text = some length → 0 < length ∧ length ≤ text.length
  settled : ∀ ahead tail, code ahead = true → Breaks tail → rule (ahead ++ tail) = rule ahead
  whole : ∀ ahead length, code ahead = true → rule ahead = some length →
    code (ahead.drop length) = true

/-! Pieces of one character -/

theorem code_single {character : Char} {rest : List Char} (whole : code (character :: rest) = true)
    (single : piece (character :: rest) = some 1) : code rest = true := by
  obtain ⟨more, first, -, behind⟩ := code_cons whole
  rw [single] at first
  cases first
  exact behind

theorem piece_plain {character : Char} (plain : character ∉ signs) (rest : List Char) :
    piece (character :: rest) = some 1 := by
  simp only [signs, List.mem_cons, List.not_mem_nil, or_false, not_or] at plain
  simp [piece, plain]

theorem code_drop_plain {text : List Char} (whole : code text = true) (length : Nat)
    (plain : ∀ character ∈ text.take length, character ∉ signs) :
    code (text.drop length) = true := by
  induction length generalizing text with
  | zero => exact whole
  | succ length ih =>
      cases text with
      | nil => exact whole
      | cons character rest =>
          have single := piece_plain (plain character List.mem_cons_self) rest
          exact ih (code_single whole single) fun other mem =>
            plain other (List.mem_cons_of_mem character mem)

/-- The rule takes at least one character. -/
def Positive (rule : Lexeme) : Prop := ∀ text length, rule text = some length → 0 < length

theorem Solid.kept {rule : Lexeme} (solid : rule.Solid) (positive : rule.Positive) : rule.Kept where
  moves := fun text length taken => ⟨positive text length taken, (solid.taken text length taken).1⟩
  settled := fun ahead tail _ breaking => solid.settled ahead tail breaking
  whole := fun ahead length whole taken =>
    code_drop_plain whole length (solid.taken ahead length taken).2

namespace Positive

variable {first second : Lexeme}

theorem one {test : Char → Bool} : (one test).Positive := by
  intro text length taken
  cases text with
  | nil => cases taken
  | cons character rest =>
      simp only [Lexeme.one] at taken
      split at taken
      · cases taken
        exact Nat.zero_lt_one
      · cases taken

theorem mark {expected : List Char} (long : 0 < expected.length) : (mark expected).Positive :=
  fun _ _ taken => (mark_length taken).1 ▸ long

theorem letters {expected : List Char} (long : 0 < expected.length) :
    (letters expected).Positive :=
  fun _ _ taken => (letters_length taken).1 ▸ long

theorem followedBy_left (positive : first.Positive) : (followedBy first second).Positive := by
  intro text length taken
  simp only [followedBy] at taken
  split at taken
  · rename_i size start
    obtain ⟨more, -, rfl⟩ := Option.map_eq_some_iff.mp taken
    have := positive text size start
    omega
  · cases taken

theorem followedBy_right (positive : second.Positive) : (followedBy first second).Positive := by
  intro text length taken
  simp only [followedBy] at taken
  split at taken
  · rename_i size start
    obtain ⟨more, rest, rfl⟩ := Option.map_eq_some_iff.mp taken
    have := positive _ more rest
    omega
  · cases taken

theorem before {accepts : List Char → Bool} (positive : first.Positive) :
    (before first accepts).Positive :=
  fun text length taken => positive text length (before_eq_some.mp taken).1

theorem either (before : first.Positive) (behind : second.Positive) :
    (either first second).Positive := by
  intro text length taken
  simp only [Lexeme.either] at taken
  split at taken
  · cases taken
    exact before text length ‹_›
  · exact behind text length taken

theorem anyOf {rules : List Lexeme} (positive : ∀ rule ∈ rules, rule.Positive) :
    (anyOf rules).Positive := by
  intro text length taken
  obtain ⟨rule, mem, found⟩ := List.exists_of_findSome?_eq_some taken
  exact positive rule mem text length found

end Positive

/-! Words, names and numbers -/

/-- No sign and no break is another spelling of a small letter or an underscore. -/
theorem solidTest_foldsTo {letter : Char} (small : (letter.isLower || letter == '_') = true) :
    solidTest (foldsTo letter) = true := by
  have apart : ((breaks ++ signs).all fun character => !(character.isLower || character == '_') &&
      character.toLower == character && !isFoldedLetter character) = true := by decide
  refine List.all_eq_true.mpr fun character member => ?_
  have other := List.all_eq_true.mp apart character member
  simp only [Bool.and_eq_true, Bool.not_eq_true', beq_iff_eq, isFoldedLetter,
    Bool.or_eq_false_iff] at other
  obtain ⟨⟨large, same⟩, ⟨⟨long, kelvin⟩, dotted⟩, -⟩ := other
  have differs : (character == letter) = false := by
    refine beq_eq_false_iff_ne.mpr ?_
    rintro rfl
    simp [large] at small
  simp only [foldsTo, same, differs, long, kelvin, dotted, Bool.and_false, Bool.or_false,
    Bool.not_false]

/-- The letters of a word hold no sign and no break, and there is at least one of them. -/
def solidWord (word : String) : Bool :=
  0 < word.toList.length && word.toList.all fun letter => solidTest (foldsTo letter)

section Words

variable {word : String}

theorem solid_letters (solid : solidWord word = true) : (letters word.toList).Solid := by
  simp only [solidWord, Bool.and_eq_true, List.all_eq_true] at solid
  exact .letters solid.2

theorem positive_letters (solid : solidWord word = true) : (letters word.toList).Positive := by
  simp only [solidWord, Bool.and_eq_true, decide_eq_true_eq] at solid
  exact .letters solid.1

theorem kept_keyword (solid : solidWord word = true) : (keyword word).Kept := by
  have follows := settled_startsWith
    (show ∀ character ∈ breaks, continuesWord character = false by decide)
  exact (Solid.before (solid_letters solid) follows.not).kept (.before (positive_letters solid))

theorem kept_anyKeyword {words : List String} (solid : ∀ word ∈ words, solidWord word = true) :
    (anyOf (words.map keyword)).Kept := by
  have follows := settled_startsWith
    (show ∀ character ∈ breaks, continuesWord character = false by decide)
  refine (Solid.anyOf fun rule mem => ?_).kept (.anyOf fun rule mem => ?_)
  · obtain ⟨word, known, rfl⟩ := List.mem_map.mp mem
    exact .before (solid_letters (solid word known)) follows.not
  · obtain ⟨word, known, rfl⟩ := List.mem_map.mp mem
    exact .before (positive_letters (solid word known))

end Words

theorem solid_modifier {rule : Lexeme} (solid : rule.Solid) : (modifier rule).Solid :=
  .before solid (settled_startsWith (by decide)).not

theorem solid_visibility : visibility.Solid := by
  refine .followedBy (.anyOf fun rule mem => ?_) (.perhaps (.letters (by decide)))
  obtain ⟨word, known, rfl⟩ := List.mem_map.mp mem
  have solid : ∀ word ∈ ["public", "protected", "private"], solidWord word = true := by decide
  exact solid_letters (solid word known)

theorem positive_visibility : visibility.Positive := by
  refine .followedBy_left (.anyOf fun rule mem => ?_)
  obtain ⟨word, known, rfl⟩ := List.mem_map.mp mem
  have solid : ∀ word ∈ ["public", "protected", "private"], solidWord word = true := by decide
  exact positive_letters (solid word known)

theorem kept_parameterModifier : parameterModifier.Kept :=
  (Solid.either (solid_modifier solid_visibility) (solid_modifier (.letters (by decide)))).kept
    (.either (.before positive_visibility) (.before (.letters (by decide))))

theorem kept_memberModifier : memberModifier.Kept := by
  have solid : ∀ word ∈ ["static", "abstract", "final", "readonly", "var"],
      solidWord word = true := by decide
  refine (Solid.either (solid_modifier solid_visibility) (.anyOf fun rule mem => ?_)).kept
    (.either (.before positive_visibility) (.anyOf fun rule mem => ?_))
  · obtain ⟨word, known, rfl⟩ := List.mem_map.mp mem
    exact solid_modifier (solid_letters (solid word known))
  · obtain ⟨word, known, rfl⟩ := List.mem_map.mp mem
    exact .before (positive_letters (solid word known))

theorem solid_identifier : identifier.Solid := .followedBy (.one (by decide)) (.run (by decide))

theorem kept_identifier : identifier.Kept := solid_identifier.kept (.followedBy_left .one)

theorem kept_dollarName : dollarName.Kept :=
  (Solid.followedBy (.one (by decide)) solid_identifier).kept (.followedBy_left .one)

theorem solid_qualifiedBy {start part : Char → Bool} (solidStart : solidTest start = true)
    (solidPart : solidTest part = true) : (qualifiedBy start part).Solid :=
  .followedBy (.perhaps (.one (by decide)))
    (.followedBy (.one solidStart) (.nameTail solidStart solidPart))

theorem positive_qualifiedBy (start part : Char → Bool) : (qualifiedBy start part).Positive :=
  .followedBy_right (.followedBy_left .one)

theorem kept_qualified : qualified.Kept :=
  (solid_qualifiedBy (by decide) (by decide)).kept (positive_qualifiedBy _ _)

theorem settled_reservedAhead : Settled reservedAhead := by
  have follows := settled_startsWith
    (show ∀ character ∈ breaks, isAnyCaseNamePart character = false by decide)
  have small : (reservedLetters.all fun word =>
      word.all fun letter => letter.isLower || letter == '_') = true := by decide
  intro ahead tail breaking
  simp only [reservedAhead]
  rw [Bool.eq_iff_iff, List.any_eq_true, List.any_eq_true]
  refine exists_congr fun word => and_congr_right fun known => ?_
  have solid : (letters word).Solid := .letters fun letter member =>
    solidTest_foldsTo (List.all_eq_true.mp (List.all_eq_true.mp small word known) letter member)
  rw [(Solid.before solid follows.not).settled ahead tail breaking]

theorem kept_name : name.Kept := by
  have solid := solid_qualifiedBy (show solidTest isAnyCaseNameStart = true by decide)
    (show solidTest isAnyCaseNamePart = true by decide)
  have free : ∀ text length, name text = some length →
      qualifiedBy isAnyCaseNameStart isAnyCaseNamePart text = some length := by
    intro text length taken
    simp only [name] at taken
    split at taken
    · cases taken
    · exact taken
  have reader : name.Solid := by
    constructor
    · intro ahead tail breaking
      simp only [name, settled_reservedAhead ahead tail breaking,
        solid.settled ahead tail breaking]
    · intro text length taken
      exact solid.taken text length (free text length taken)
  exact reader.kept fun text length taken =>
    positive_qualifiedBy _ _ text length (free text length taken)

theorem solid_digits : digits.Solid := .followedBy (.one (by decide)) (.run (by decide))

theorem solid_exponent : exponent.Solid :=
  .followedBy (.one (by decide)) (.followedBy (.perhaps (.one (by decide)))
    (.followedBy (.one (by decide)) (.run (by decide))))

theorem solid_based {lower upper : Char} {isDigit : Char → Bool}
    (solid : solidTest (fun character => character == lower || character == upper) = true)
    (solidDigit : solidTest (fun character => isDigit character || character == '_') = true) :
    (based lower upper isDigit).Solid :=
  .followedBy (.one (by decide)) (.followedBy (.one solid)
    (.followedBy (.one solidDigit) (.run solidDigit)))

theorem kept_number : number.Kept := by
  refine (Solid.anyOf ?_).kept (.anyOf ?_)
  · simp only [List.forall_mem_cons, List.not_mem_nil, false_imp_iff, implies_true, and_true]
    exact ⟨solid_based (by decide) (by decide), solid_based (by decide) (by decide),
      solid_based (by decide) (by decide),
      .followedBy (.perhaps solid_digits)
        (.followedBy (.one (by decide)) (.followedBy solid_digits (.perhaps solid_exponent))),
      .followedBy solid_digits (.perhaps solid_exponent)⟩
  · simp only [List.forall_mem_cons, List.not_mem_nil, false_imp_iff, implies_true, and_true]
    exact ⟨.followedBy_left .one, .followedBy_left .one, .followedBy_left .one,
      .followedBy_right (.followedBy_left .one), .followedBy_left (.followedBy_left .one)⟩

theorem kept_colon : colon.Kept :=
  (Solid.before (.one (by decide)) (settled_startsWith (by decide)).not).kept (.before .one)

theorem kept_plainAssign : Reader.plainAssign.Kept :=
  (Solid.before (.mark (by decide)) (settled_startsWith (by decide)).not).kept
    (.before (.mark (by decide)))

/-! Marks with signs in them -/

/-- Every character of the mark is a piece of its own, whatever follows the mark. -/
def singles : List Char → Bool
  | [] => true
  | character :: more =>
      (if character == '/' then
        startsWith (fun second => second != '/' && second != '*') more
      else if character == '?' then startsWith (fun second => second != '>') more
      else if character == '<' then
        match more with
        | [] => false
        | second :: others => second != '<' || startsWith (fun third => third != '<') others
      else !signs.contains character) && singles more

theorem startsWith_cons {test : Char → Bool} {text : List Char} (starts : startsWith test text = true) :
    ∃ first rest, text = first :: rest ∧ test first = true := by
  cases text with
  | nil => cases starts
  | cons first rest => exact ⟨first, rest, rfl, starts⟩

theorem piece_singles {character : Char} {more : List Char}
    (single : singles (character :: more) = true) (rest : List Char) :
    piece (character :: (more ++ rest)) = some 1 := by
  simp only [singles, Bool.and_eq_true] at single
  obtain ⟨single, -⟩ := single
  split at single
  · rename_i slash
    obtain rfl := eq_of_beq slash
    obtain ⟨second, others, rfl, apart⟩ := startsWith_cons single
    simp only [Bool.and_eq_true, bne_iff_ne] at apart
    simp [piece, apart.1, apart.2]
  · split at single
    · rename_i question
      obtain rfl := eq_of_beq question
      obtain ⟨second, others, rfl, apart⟩ := startsWith_cons single
      simp only [bne_iff_ne] at apart
      simp [piece, apart]
    · split at single
      · rename_i less
        obtain rfl := eq_of_beq less
        split at single
        · cases single
        · rename_i second others
          simp only [Bool.or_eq_true, bne_iff_ne] at single
          rcases single with apart | starts
          · simp [piece, mark, apart]
          · obtain ⟨third, rest, rfl, apart⟩ := startsWith_cons starts
            simp only [bne_iff_ne] at apart
            simp [piece, mark, apart]
      · exact piece_plain (by simpa using single) (more ++ rest)

theorem code_singles {expected : List Char} (single : singles expected = true) {rest : List Char}
    (whole : code (expected ++ rest) = true) : code rest = true := by
  induction expected with
  | nil => exact whole
  | cons character more ih =>
      have behind := code_single whole (piece_singles single rest)
      simp only [singles, Bool.and_eq_true] at single
      exact ih single.2 behind

theorem mark_eq_some {expected text : List Char} {length : Nat}
    (taken : mark expected text = some length) : text = expected ++ text.drop length := by
  induction expected generalizing text length with
  | nil =>
      rw [mark] at taken
      cases taken
      rfl
  | cons first more ih =>
      cases text with
      | nil =>
          rw [mark] at taken
          cases taken
      | cons character rest =>
          rw [mark] at taken
          split at taken
          · rename_i same
            obtain ⟨shorter, others, rfl⟩ := Option.map_eq_some_iff.mp taken
            rw [eq_of_beq same, List.cons_append, List.drop_succ_cons, ← ih others]
          · cases taken

/-- A mark without breaks ends before every break. -/
theorem mark_append {expected : List Char} (solid : ∀ letter ∈ expected, letter ∉ breaks)
    (ahead : List Char) {tail : List Char} (breaking : Breaks tail) :
    mark expected (ahead ++ tail) = mark expected ahead := by
  induction expected generalizing ahead with
  | nil => rw [mark, mark]
  | cons first more ih =>
      cases ahead with
      | nil =>
          obtain ⟨character, rest, rfl, mem, -⟩ := breaking
          have apart : (character == first) = false := by
            refine beq_eq_false_iff_ne.mpr fun same => ?_
            exact solid first List.mem_cons_self (same ▸ mem)
          rw [List.nil_append, mark, mark, apart]
          rfl
      | cons character rest =>
          have others := ih (fun letter mem => solid letter (List.mem_cons_of_mem first mem)) rest
          rw [List.cons_append, mark, mark, others]

theorem settled_mark {expected : List Char} (solid : ∀ letter ∈ expected, letter ∉ breaks) :
    Settled fun text => (mark expected text).isSome := by
  intro ahead tail breaking
  simp only [mark_append solid ahead breaking]

/-- A mark of such characters that holds no white space, and a slash in front only. -/
def closeMark : List Char → Bool
  | [] => false
  | first :: more =>
      !isBlank first && more.all (fun letter => !breaks.contains letter) && singles (first :: more)

theorem kept_closeMark {expected : List Char} (compact : closeMark expected = true) :
    (mark expected).Kept := by
  cases expected with
  | nil => cases compact
  | cons first more =>
      simp only [closeMark, Bool.and_eq_true, Bool.not_eq_true', List.all_eq_true,
        List.contains_eq_mem, decide_eq_false_iff_not] at compact
      obtain ⟨⟨dark, solid⟩, single⟩ := compact
      constructor
      · intro text length taken
        obtain ⟨rfl, bound⟩ := mark_length taken
        exact ⟨Nat.succ_pos _, bound⟩
      · intro ahead tail _ breaking
        cases ahead with
        | cons character rest =>
            have others := mark_append solid rest breaking
            rw [List.cons_append, mark, mark, others]
        | nil =>
            obtain ⟨character, rest, rfl, mem, comment⟩ := breaking
            rw [List.nil_append, mark, mark]
            split
            · rename_i same
              obtain rfl := eq_of_beq same
              have slash : character = '/' := by
                have white : ∀ other ∈ breaks, isBlank other = false → other = '/' := by decide
                exact white character mem dark
              subst slash
              have unlike : mark more rest = none := by
                simp only [singles, beq_self_eq_true, if_true, Bool.and_eq_true] at single
                obtain ⟨second, others, rfl, apart⟩ := startsWith_cons single.1
                obtain ⟨body, rfl⟩ := List.head?_eq_some_iff.mp (comment rfl)
                simp only [Bool.and_eq_true, bne_iff_ne] at apart
                rw [mark, beq_eq_false_iff_ne.mpr (Ne.symm apart.2)]
                rfl
              rw [unlike]
              rfl
            · rfl
      · intro ahead length whole taken
        rw [mark_eq_some taken] at whole
        exact code_singles single whole

theorem question_eq_some {text : List Char} {length : Nat} (taken : question text = some length) :
    ∃ rest, text = '?' :: rest ∧ length = 1 ∧ rest.head? ≠ some '>' := by
  cases text with
  | nil => cases taken
  | cons character rest =>
      simp only [question, before, one] at taken
      split at taken
      · rename_i size found
        split at found
        · rename_i sign
          cases found
          split at taken
          · rename_i free
            cases taken
            simp only [Bool.and_eq_true, List.drop_succ_cons, List.drop_zero] at free
            refine ⟨rest, by rw [eq_of_beq sign], rfl, fun closing => ?_⟩
            obtain ⟨others, rfl⟩ := List.head?_eq_some_iff.mp closing
            simp [mark] at free
          · cases taken
        · cases found
      · cases taken

theorem kept_question : question.Kept where
  moves := by
    intro text length taken
    obtain ⟨rest, rfl, rfl, -⟩ := question_eq_some taken
    exact ⟨Nat.zero_lt_one, Nat.succ_pos _⟩
  settled := by
    intro ahead tail _ breaking
    cases ahead with
    | nil =>
        obtain ⟨first, rest, rfl, mem, -⟩ := breaking
        have apart : ∀ other ∈ breaks, (other == '?') = false := by decide
        simp [question, before, one, apart first mem]
    | cons character rest =>
        simp only [question, before, one, List.cons_append]
        split
        · rename_i size found
          split at found
          · cases found
            simp only [List.drop_succ_cons, List.drop_zero,
              mark_append (show ∀ letter ∈ ['?'], letter ∉ breaks by decide) rest breaking,
              mark_append (show ∀ letter ∈ ['-', '>'], letter ∉ breaks by decide) rest breaking,
              mark_append (show ∀ letter ∈ ['>'], letter ∉ breaks by decide) rest breaking]
          · cases found
        · rfl
  whole := by
    intro ahead length whole taken
    obtain ⟨rest, rfl, rfl, apart⟩ := question_eq_some taken
    refine code_single whole ?_
    simp [piece, apart]

end Lexeme

end PhpAudit
