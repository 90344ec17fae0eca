import PhpAudit.Proofs.LoopHeaders

/-!
Reserved words. They are never names, and the words that open a clause of a statement already begun
or end its list of statements start no statement, so every list of statements stops before them.
-/

namespace PhpAudit

/-- The words that open a clause of a statement already begun, or end its statements. -/
def clauseWords : List String :=
  ["else", "elseif", "endif", "endwhile", "endfor", "endforeach", "endswitch", "case", "default",
    "catch", "finally", "as"]

/-- The keywords that a statement can start with. -/
def openingWords : List String :=
  ["if", "while", "do", "for", "foreach", "switch", "try", "return", "echo", "break", "continue",
    "global", "static", "namespace", "use", "const", "declare", "function", "abstract", "final",
    "readonly", "class", "interface", "trait", "clone", "print", "yield", "throw", "include_once",
    "include", "require_once", "require", "fn", "new"]

/-- The text starts with the word in capital or small letters, and no character that a name can
hold follows it. -/
def WordAhead (word : String) (text : List Char) : Prop :=
  ∃ spelled rest, text = spelled ++ rest ∧ spelled.map Char.toLower = word.toList ∧
    Lexeme.startsWith isAnyCaseNamePart rest = false

def ClauseAhead (text : List Char) : Prop := ∃ word ∈ clauseWords, WordAhead word text

section Letters

variable {expected letter character : Char}

theorem isAlpha_of_toLower (lower : letter.isLower = true) (same : character.toLower = letter) :
    character.isAlpha = true := by
  change (character.isUpper || character.isLower) = true
  by_cases capital : character.isUpper = true
  · simp [capital]
  · have itself : character.toLower = character :=
      dif_neg fun inside => capital (decide_eq_true inside)
    rw [itself] at same
    simp [same, lower]

theorem eq_of_foldsTo (small : expected.toLower = expected) (lower : letter.isLower = true)
    (same : character.toLower = letter) (folds : foldsTo expected character = true) :
    expected = letter := by
  have plain : ∀ special : Char, special.toLower = special → special.isLower = false →
      character ≠ special := by
    intro special itself notLower equal
    rw [equal, itself] at same
    rw [same, lower] at notLower
    cases notLower
  simp only [foldsTo, Bool.or_eq_true, Bool.and_eq_true, beq_iff_eq] at folds
  rcases folds with (((equal | folded) | special) | special) | special
  · rw [← small, ← equal, same]
  · rw [← folded, same]
  · exact absurd special.2 (plain _ (by decide) (by decide))
  · exact absurd special.2 (plain _ (by decide) (by decide))
  · exact absurd special.2 (plain _ (by decide) (by decide))

theorem not_isDecimalDigit_of_isAlpha (alpha : character.isAlpha = true) :
    isDecimalDigit character = false := by
  have bounds : 65 ≤ character.toNat ∧ character.toNat ≤ 122 := by
    change (decide (character.val ≥ 'A'.val ∧ character.val ≤ 'Z'.val) ||
      decide (character.val ≥ 'a'.val) && decide (character.val ≤ 'z'.val)) = true at alpha
    simp only [Bool.or_eq_true, Bool.and_eq_true, decide_eq_true_eq, ge_iff_le,
      UInt32.le_iff_toNat_le] at alpha
    have capital : 'A'.val.toNat = 65 ∧ 'Z'.val.toNat = 90 := by decide
    have small : 'a'.val.toNat = 97 ∧ 'z'.val.toNat = 122 := by decide
    change 65 ≤ character.val.toNat ∧ character.val.toNat ≤ 122
    omega
  have notDigit : character.isDigit = false := by
    simp only [Char.isDigit, Bool.and_eq_false_iff, decide_eq_false_iff_not, ge_iff_le,
      UInt32.le_iff_toNat_le]
    have digits : '9'.val.toNat = 57 := by decide
    right
    change ¬ character.toNat ≤ _
    omega
  have near : ¬ 0x80 ≤ character.toNat := by omega
  simp [isDecimalDigit, isDigitFrom, notDigit, near]

end Letters

namespace Lexeme

variable {expected spelled rest text : List Char} {word opening : String} {length : Nat}

/-- Letters match a spelled word only if one of the two continues the other. -/
theorem letters_spelled (small : ∀ letter ∈ expected, letter.toLower = letter)
    (lower : ∀ letter ∈ spelled.map Char.toLower, letter.isLower = true)
    (taken : letters expected (spelled ++ rest) = some length) :
    expected <+: spelled.map Char.toLower ∨ spelled.map Char.toLower <+: expected := by
  induction expected generalizing spelled length with
  | nil => exact .inl List.nil_prefix
  | cons first more ih =>
      cases spelled with
      | nil => exact .inr List.nil_prefix
      | cons character others =>
          obtain ⟨firstSmall, moreSmall⟩ := List.forall_mem_cons.mp small
          obtain ⟨firstLower, othersLower⟩ := List.forall_mem_cons.mp lower
          simp only [letters, List.cons_append] at taken
          split at taken
          · rename_i folds
            obtain ⟨_, others, _⟩ := Option.map_eq_some_iff.mp taken
            have same : first = character.toLower :=
              eq_of_foldsTo firstSmall firstLower rfl folds
            rw [List.map_cons, same, List.prefix_cons_inj, List.prefix_cons_inj]
            exact ih moreSmall othersLower others
          · cases taken

theorem letters_self (same : spelled.map Char.toLower = expected) :
    letters expected (spelled ++ rest) = some expected.length := by
  induction spelled generalizing expected with
  | nil =>
      subst same
      rfl
  | cons character others ih =>
      subst same
      have folds : foldsTo character.toLower character = true := by simp [foldsTo]
      simp [letters, folds, ih rfl]

theorem letters_eq_none (ahead : WordAhead word text)
    (lower : ∀ letter ∈ word.toList, letter.isLower = true)
    (small : ∀ letter ∈ expected, letter.toLower = letter) (notBegun : ¬ expected <+: word.toList)
    (notContinued : ¬ word.toList <+: expected) : letters expected text = none := by
  obtain ⟨spelled, rest, rfl, same, _⟩ := ahead
  rw [← same] at lower notBegun notContinued
  cases taken : letters expected (spelled ++ rest) with
  | none => rfl
  | some length =>
      rcases letters_spelled small lower taken with begun | continued
      · exact absurd begun notBegun
      · exact absurd continued notContinued

/-- A keyword is not found at another word that does not begin it: where the keyword begins the
word, the next letter of the word continues it. -/
theorem keyword_eq_none (ahead : WordAhead word text)
    (lower : ∀ letter ∈ word.toList, letter.isLower = true)
    (small : ∀ letter ∈ opening.toList, letter.toLower = letter)
    (apart : ¬ word.toList <+: opening.toList) : keyword opening text = none := by
  obtain ⟨spelled, rest, rfl, same, _⟩ := ahead
  rw [← same] at lower apart
  simp only [keyword, before]
  split
  · rename_i length taken
    have begun : opening.toList <+: spelled.map Char.toLower :=
      (letters_spelled small lower taken).resolve_right apart
    have size := (letters_length taken).1
    have shorter : length < spelled.length := by
      have bound := begun.length_le
      rw [List.length_map, ← size] at bound
      refine Nat.lt_of_le_of_ne bound fun equal => apart ?_
      rewrite [begun.eq_of_length (by rw [List.length_map, ← size, equal])]
      exact List.prefix_refl _
    have next : (spelled ++ rest).drop length =
        spelled[length] :: (spelled.drop (length + 1) ++ rest) := by
      rw [List.drop_append_of_le_length (Nat.le_of_lt shorter), List.drop_eq_getElem_cons shorter,
        List.cons_append]
    have alpha : (spelled[length]).isAlpha = true :=
      isAlpha_of_toLower (lower _ (List.mem_map_of_mem (List.getElem_mem shorter))) rfl
    rw [next]
    simp [startsWith, continuesWord, isWordChar, Char.isAlphanum, alpha]
  · rfl

theorem followedBy_of_none {first second : Lexeme} (fails : first text = none) :
    followedBy first second text = none := by
  simp only [followedBy, fails]

theorem followedBy_perhaps_of_none {first second : Lexeme} (fails : first text = none) :
    followedBy (perhaps first) second text = second text := by
  simp [followedBy, perhaps, fails]

theorem anyOf_of_none {lexemes : List Lexeme} (fails : ∀ lexeme ∈ lexemes, lexeme text = none) :
    anyOf lexemes text = none :=
  List.findSome?_eq_none_iff.mpr fails

/-! Operands -/

/-- The signs that an operand can start with. -/
def operandSigns : List Char := ['(', '[', '$', '+', '-', '!', '~', '@']

/-- No operand starts with the text. -/
structure NoOperand (text : List Char) : Prop where
  word : ∀ word ∈ openingWords, keyword word text = none
  call : ∀ word ∈ ["array", "list", "match"], letters word.toList text = none
  sign : ∀ sign ∈ operandSigns, one (· == sign) text = none
  heredoc : heredoc text = none
  string : string text = none
  number : number text = none
  name : name text = none

namespace NoOperand

variable (no : NoOperand text)

include no

theorem mark {expected : List Char} {sign : Char} {more : List Char}
    (begins : expected = sign :: more) (known : sign ∈ operandSigns) :
    mark expected text = none := by
  have first := no.sign sign known
  subst begins
  cases text with
  | nil => rfl
  | cons character rest =>
      have apart : character ≠ sign := by simpa [one] using first
      simp [Lexeme.mark, apart]

theorem keywordCall {word : String} (known : word ∈ ["array", "list", "match"]) :
    keywordCall word text = none := by
  simp only [Lexeme.keywordCall, before, no.call word known]

theorem cast : cast text = none := by
  apply anyOf_of_none
  intro lexeme member
  obtain ⟨word, _, rfl⟩ := List.mem_map.mp member
  exact followedBy_of_none (no.sign '(' (by decide))

theorem loadKeyword : loadKeyword text = none := by
  have opening : ∀ word ∈ ["include_once", "include", "require_once", "require"],
      word ∈ openingWords := by decide
  apply anyOf_of_none
  intro rule member
  obtain ⟨word, known, rfl⟩ := List.mem_map.mp member
  exact no.word word (opening word known)

end NoOperand

/-! Names -/

theorem nameTail_ends (start part : Char → Bool) (text : List Char) :
    startsWith part (text.drop (nameTail start part text)) = false := by
  induction text with
  | nil => rfl
  | cons character rest ih =>
      unfold nameTail
      split
      · exact ih
      · rename_i other
        split
        · exact ih
        · simpa [startsWith] using other

theorem qualifiedBy_ends {start part : Char → Bool}
    (taken : qualifiedBy start part text = some length) :
    startsWith part (text.drop length) = false := by
  unfold qualifiedBy followedBy at taken
  split at taken
  · rename_i slash _
    obtain ⟨size, tail, rfl⟩ := Option.map_eq_some_iff.mp taken
    split at tail
    · obtain ⟨more, found, rfl⟩ := Option.map_eq_some_iff.mp tail
      cases found
      rw [← List.drop_drop, ← List.drop_drop]
      exact nameTail_ends start part _
    · cases tail
  · cases taken

theorem reservedAhead_of_word (reserved : word ∈ reservedWords) (ahead : WordAhead word text) :
    reservedAhead text = true := by
  obtain ⟨spelled, rest, rfl, same, ends⟩ := ahead
  rw [reservedAhead, List.any_eq_true]
  refine ⟨word.toList, List.mem_map_of_mem reserved, ?_⟩
  have size : spelled.length = word.toList.length := by rw [← same, List.length_map]
  simp [before, letters_self same, ← size, ends]

theorem name_ne_reserved (taken : name text = some length) (reserved : word ∈ reservedWords) :
    lowerAscii (String.ofList (text.take length)) ≠ word := by
  intro same
  unfold name at taken
  split at taken
  · cases taken
  · rename_i free
    have ends := qualifiedBy_ends taken
    apply free
    apply reservedAhead_of_word reserved
    refine ⟨text.take length, text.drop length, (List.take_append_drop length text).symm, ?_, ends⟩
    rw [← same, lowerAscii, String.toList_ofList, String.toList_ofList]

/-! What no clause word begins with -/

section Clause

variable (ahead : ClauseAhead text)

include ahead

theorem exists_letter_of_clause : ∃ first more, text = first :: more ∧ first.isAlpha = true ∧
    first ≠ 'b' ∧ first ≠ 'B' := by
  obtain ⟨word, clause, spelled, rest, rfl, same, _⟩ := ahead
  have initial : ∀ word ∈ clauseWords, word.toList ≠ [] ∧
      ∀ letter ∈ word.toList.take 1, letter.isLower = true ∧ letter ≠ 'b' := by decide
  obtain ⟨some, first⟩ := initial word clause
  rw [← same] at some first
  cases spelled with
  | nil => exact absurd rfl some
  | cons character others =>
      obtain ⟨lower, notB⟩ := first character.toLower List.mem_cons_self
      refine ⟨character, others ++ rest, rfl, isAlpha_of_toLower lower rfl, ?_, ?_⟩
      · rintro rfl
        exact notB (by decide)
      · rintro rfl
        exact notB (by decide)

theorem keyword_clause (known : opening ∈ openingWords) : keyword opening text = none := by
  obtain ⟨word, clause, spelled⟩ := ahead
  have lower : ∀ word ∈ clauseWords, ∀ letter ∈ word.toList, letter.isLower = true := by decide
  have small : ∀ opening ∈ openingWords, ∀ letter ∈ opening.toList, letter.toLower = letter := by
    decide
  have apart : ∀ word ∈ clauseWords, ∀ opening ∈ openingWords,
      ¬ word.toList <+: opening.toList := by decide
  exact keyword_eq_none spelled (lower word clause) (small opening known)
    (apart word clause opening known)

theorem letters_clause (known : opening ∈ ["array", "list", "match", "enum"]) :
    letters opening.toList text = none := by
  obtain ⟨word, clause, spelled⟩ := ahead
  have lower : ∀ word ∈ clauseWords, ∀ letter ∈ word.toList, letter.isLower = true := by decide
  have apart : ∀ word ∈ clauseWords, ∀ opening ∈ ["array", "list", "match", "enum"],
      (∀ letter ∈ opening.toList, letter.toLower = letter) ∧
        ¬ opening.toList <+: word.toList ∧ ¬ word.toList <+: opening.toList := by decide
  obtain ⟨small, notBegun, notContinued⟩ := apart word clause opening known
  exact letters_eq_none spelled (lower word clause) small notBegun notContinued

theorem one_clause {test : Char → Bool}
    (fails : ∀ character : Char, character.isAlpha = true → character ≠ 'b' → character ≠ 'B' →
      test character = false) : one test text = none := by
  obtain ⟨first, more, rfl, alpha, notSmall, notCapital⟩ := exists_letter_of_clause ahead
  simp [one, fails first alpha notSmall notCapital]

theorem mark_clause {expected : List Char} {first : Char} {more : List Char}
    (begins : expected = first :: more) (sign : first.isAlpha = false) :
    mark expected text = none := by
  obtain ⟨character, others, rfl, alpha, _, _⟩ := exists_letter_of_clause ahead
  have apart : character ≠ first := by
    intro same
    rw [same, sign] at alpha
    cases alpha
  simp [mark, begins, apart]

theorem one_sign_clause {sign : Char} (notLetter : sign.isAlpha = false) :
    one (· == sign) text = none := by
  apply one_clause ahead
  intro character alpha _ _
  rw [beq_eq_false_iff_ne]
  rintro rfl
  rw [notLetter] at alpha
  cases alpha

theorem number_clause : number text = none := by
  have digit : digits text = none :=
    followedBy_of_none (one_clause ahead fun _ alpha _ _ => not_isDecimalDigit_of_isAlpha alpha)
  have zero := one_sign_clause ahead (by decide : '0'.isAlpha = false)
  have point := one_sign_clause ahead (by decide : '.'.isAlpha = false)
  apply anyOf_of_none
  simp only [List.forall_mem_cons]
  refine ⟨followedBy_of_none zero, followedBy_of_none zero, followedBy_of_none zero, ?_,
    followedBy_of_none digit, nofun⟩
  rw [followedBy_perhaps_of_none digit]
  exact followedBy_of_none point

theorem binaryMark_clause {next : Lexeme} : followedBy binaryMark next text = next text := by
  apply followedBy_perhaps_of_none
  apply one_clause ahead
  intro character _ notSmall notCapital
  simp [notSmall, notCapital]

theorem string_clause : string text = none := by
  apply anyOf_of_none
  simp only [List.forall_mem_cons, binaryMark_clause ahead]
  exact ⟨followedBy_of_none (one_sign_clause ahead (by decide)),
    followedBy_of_none (one_sign_clause ahead (by decide)),
    followedBy_of_none (one_sign_clause ahead (by decide)), nofun⟩

theorem heredoc_clause : heredoc text = none := by
  have arrows : mark "<<<".toList text = none := mark_clause ahead rfl (by decide)
  have none : ∀ quote, heredocWith quote text = none := by
    intro quote
    simp only [heredocWith, binaryMark_clause ahead, followedBy_of_none arrows]
  apply anyOf_of_none
  simp [none]

theorem name_clause : name text = none := by
  have reserved : ∀ word ∈ clauseWords, word ∈ reservedWords := by decide
  obtain ⟨word, clause, spelled⟩ := ahead
  simp [name, reservedAhead_of_word (reserved word clause) spelled]

theorem noOperand_clause : NoOperand text where
  word _ known := keyword_clause ahead known
  call word known := by
    have more : ∀ word ∈ ["array", "list", "match"], word ∈ ["array", "list", "match", "enum"] := by
      decide
    exact letters_clause ahead (more word known)
  sign sign known := by
    have notLetter : ∀ sign ∈ operandSigns, sign.isAlpha = false := by decide
    exact one_sign_clause ahead (notLetter sign known)
  heredoc := heredoc_clause ahead
  string := string_clause ahead
  number := number_clause ahead
  name := name_clause ahead

end Clause

end Lexeme

namespace Reader

/-! Expressions -/

section Operands

variable {nested : Nested} {cursor : Cursor} (no : Lexeme.NoOperand cursor.rest)

include no

theorem operandWord_fails {word : String} (known : word ∈ openingWords) :
    (keyword word).Fails cursor :=
  .token (no.word word known)

theorem operandMark_fails {text : String} {sign : Char} {more : List Char}
    (begins : text.toList = sign :: more) (known : sign ∈ Lexeme.operandSigns) :
    (mark text).Fails cursor :=
  .token (no.mark begins known)

theorem staticMark_passes : staticMark.run cursor = some (false, cursor) :=
  Fails.given (.bind (operandWord_fails no (by decide)))

theorem closure_fails : (closure nested).Fails cursor :=
  .here (.after (staticMark_passes no) (.bind (operandWord_fails no (by decide))))

theorem arrowFunction_fails : (arrowFunction nested).Fails cursor :=
  .here (.after (staticMark_passes no) (.bind (operandWord_fails no (by decide))))

theorem primary_fails : (primary nested).Fails cursor := by
  have call : ∀ {word}, word ∈ ["array", "list", "match"] →
      (token (Lexeme.keywordCall word)).Fails cursor := fun known => .token (no.keywordCall known)
  have dollar : Lexeme.dollarName cursor.rest = none :=
    Lexeme.followedBy_of_none (no.sign '$' (by decide))
  refine .orElse ?group <| .orElse (closure_fails no) <| .orElse (arrowFunction_fails no) <|
    .orElse ?new <| .orElse ?matching <| .orElse ?short <| .orElse ?long <| .orElse ?list <|
    .orElse ?string <| .orElse ?number <| .orElse ?plain <| .orElse ?indirect ?name
  case group => exact .here (.bind (operandMark_fails no rfl (by decide)))
  case new => exact .here (.bind (operandWord_fails no (by decide)))
  case matching => exact .here (.bind (call (by decide)))
  case short => exact .here (.bind (operandMark_fails no rfl (by decide)))
  case long => exact .here (.bind (call (by decide)))
  case list => exact .here (.bind (call (by decide)))
  case string => exact .here (.bind (.orElse (.lexeme no.heredoc) (.lexeme no.string)))
  case number => exact .here (.bind (.lexeme no.number))
  case plain => exact .here (.bind (.lexeme dollar))
  case indirect => exact .here (.bind (operandMark_fails no rfl (by decide)))
  case name => exact .here (.bind (.lexeme no.name))

theorem leadingOperator_fails : leadingOperator.Fails cursor := by
  refine .orElse (.bind (.lexeme no.cast)) ?_
  unfold markOperators
  simp only [List.foldr_cons, List.foldr_nil]
  refine .orElse ?increment <| .orElse ?decrement <| .orElse ?not <| .orElse ?complement <|
    .orElse ?silence <| .orElse ?minus <| .orElse ?plus (.bind (operandWord_fails no (by decide)))
  all_goals exact .bind (operandMark_fails no rfl (by decide))

theorem keywordExpression_fails : (keywordExpression nested).Fails cursor := by
  refine .orElse ?print <| .orElse ?yield <| .orElse ?throw ?load
  case print => exact .here (.bind (.bind (operandWord_fails no (by decide))))
  case yield => exact .here (.bind (operandWord_fails no (by decide)))
  case throw => exact .here (.bind (.bind (operandWord_fails no (by decide))))
  case load => exact .here (.bind (.bind (.lexeme no.loadKeyword)))

theorem unary_fails : (unary nested).Fails cursor :=
  .orElse (.here (.bind (leadingOperator_fails no))) <|
    .orElse (keywordExpression_fails no) (.bind (.bind (primary_fails no)))

theorem expression_fails : (expression nested).Fails cursor :=
  .bind (.bind (.bind (unary_fails no)))

end Operands

/-! Statements -/

variable {nested : Nested} {cursor : Cursor} (ahead : ClauseAhead cursor.rest)

include ahead

theorem keyword_fails {word : String} (known : word ∈ openingWords) :
    (keyword word).Fails cursor :=
  .token (Lexeme.keyword_clause ahead known)

theorem mark_fails {text : String} {first : Char} {more : List Char}
    (begins : text.toList = first :: more) (sign : first.isAlpha = false) :
    (mark text).Fails cursor :=
  .token (Lexeme.mark_clause ahead begins sign)

theorem attributes_pass (limit : Nat) : (attributes limit).run cursor = some ((), cursor) := by
  have group : (token Lexeme.attributeGroup).Fails cursor :=
    .token (Lexeme.followedBy_of_none (Lexeme.mark_clause ahead rfl (by decide)))
  exact run_bind_of_some (Fails.many (.bind group) limit)

theorem block_fails : (block nested).Fails cursor :=
  .here (.bind (mark_fails ahead rfl (by decide)))

theorem wordStatement_fails {word : String} {build : Span → Option Expr → Stmt}
    (known : word ∈ openingWords) : (wordStatement word build nested).Fails cursor :=
  .here (.bind (keyword_fails ahead known))

theorem namespaceKeyword_fails : (token Lexeme.namespaceKeyword).Fails cursor := by
  apply Fails.token
  simp only [Lexeme.namespaceKeyword, Lexeme.before,
    Lexeme.keyword_clause ahead (by decide : "namespace" ∈ openingWords)]

theorem classDeclaration_fails : (classDeclaration nested).Fails cursor := by
  have modifier : (lexeme Lexeme.classModifier).Fails cursor := by
    refine .lexeme (Lexeme.anyOf_of_none ?_)
    intro rule member
    obtain ⟨word, known, rfl⟩ := List.mem_map.mp member
    have opening : ∀ word ∈ ["abstract", "final", "readonly"], word ∈ openingWords := by decide
    exact Lexeme.keyword_clause ahead (opening word known)
  exact .here (.after (attributes_pass ahead _) (.after (modifier.bind.many _)
    (.bind (keyword_fails ahead (by decide)))))

theorem enumDeclaration_fails : (enumDeclaration nested).Fails cursor := by
  refine .here (.after (attributes_pass ahead _) (.bind (.token ?_)))
  simp only [Lexeme.enumKeyword, Lexeme.before,
    Lexeme.letters_clause ahead (by decide : "enum" ∈ ["array", "list", "match", "enum"])]

theorem statement_fails : (statement nested).Fails cursor := by
  have word : ∀ {word}, word ∈ openingWords → ∀ {Value : Type} {next : Unit → Reader Value},
      (keyword word >>= next).Fails cursor := fun known => .bind (keyword_fails ahead known)
  have declared : ∀ {word}, word ∈ openingWords → ∀ {Value : Type} {next : Unit → Reader Value},
      (attributes nested.limit >>= fun _ => keyword word >>= next).Fails cursor :=
    fun known => .after (attributes_pass ahead _) (.bind (keyword_fails ahead known))
  have package := namespaceKeyword_fails ahead
  refine .orElse (.bind (.map (block_fails ahead))) <|
    .orElse (.here (.bind (mark_fails ahead rfl (by decide)))) (.firstOf ?_)
  simp only [List.forall_mem_cons]
  exact ⟨.here (word (by decide)), .here (word (by decide)), .here (word (by decide)),
    .here (word (by decide)), .here (word (by decide)), .here (word (by decide)),
    .here (word (by decide)), wordStatement_fails ahead (by decide), .here (word (by decide)),
    wordStatement_fails ahead (by decide), wordStatement_fails ahead (by decide),
    .here (word (by decide)), .here (word (by decide)), .here (.bind package),
    .here (.bind package), .here (word (by decide)), .here (word (by decide)),
    .here (word (by decide)), .here (declared (by decide)), classDeclaration_fails ahead,
    .here (declared (by decide)), .here (declared (by decide)), enumDeclaration_fails ahead,
    .here (.bind (mark_fails ahead rfl (by decide))),
    .here (.bind (expression_fails (Lexeme.noOperand_clause ahead))), nofun⟩

end Reader

/-- No statement is kept at a clause word. -/
def Contract.clauses : Contract where
  hint _ := True
  unary _ := True
  binary _ := True
  ternary _ := True
  expression _ := True
  statement passage := ¬ ClauseAhead passage.before.rest

theorem Contract.clauses_metBy (nested : Nested) (text : List Char) :
    Contract.clauses.MetBy nested text where
  hint _ _ _ _ _ _ := trivial
  unary _ _ _ _ _ _ := trivial
  binary _ _ _ _ _ _ := trivial
  ternary _ _ _ _ _ _ := trivial
  expression _ _ _ _ _ _ := trivial
  statement _ _ _ _ _ read := by
    intro ahead
    have fails : (Reader.statement nested).Fails _ := Reader.statement_fails ahead
    rw [Reader.Fails, read] at fails
    cases fails

namespace Reader

variable {text : List Char} {offset : Nat}

theorem heldStatement_fails (ahead : ClauseAhead (text.drop offset)) (misread : Bool) :
    (Nested.ofText text).statement.Fails
      (Cursor.onTable (Nested.ofText text) text offset misread) := by
  have inside : offset ≤ text.length := by
    obtain ⟨first, more, same, _⟩ := Lexeme.exists_letter_of_clause ahead
    have size := congrArg List.length same
    simp only [List.length_drop, List.length_cons] at size
    omega
  have reached := Cursor.ofText_reaches inside misread
  have held := (Contract.clauses_metBy (Nested.ofText text) text).heldAt_table [] text rfl
  have kept := held _ reached
  change (part Parts.statement).run _ = none
  simp only [part]
  split
  · rfl
  · rename_i parts others same
    split
    · rename_i taken found
      exact absurd ahead ((kept parts (by simp [same])).statement taken found)
    · rfl

theorem statementList_stops (ahead : ClauseAhead (text.drop offset)) (misread : Bool) :
    (statementList (Nested.ofText text)).run
        (Cursor.onTable (Nested.ofText text) text offset misread) =
      some ([], Cursor.onTable (Nested.ofText text) text offset misread) :=
  run_bind_of_some (Fails.many (.bind (heldStatement_fails ahead misread)) _)

/-- A name is never a reserved word, and a list of statements ends before every word of a clause,
because no statement starts there. -/
theorem reserved_word_ends_statements (text : List Char) (offset : Nat) (misread : Bool) :
    (∀ length, Lexeme.name (text.drop offset) = some length → ∀ word ∈ Lexeme.reservedWords,
      lowerAscii (String.ofList ((text.drop offset).take length)) ≠ word) ∧
    ∀ word ∈ clauseWords, WordAhead word (text.drop offset) →
      (∀ (nested : Nested) (cursor : Cursor), cursor.rest = text.drop offset →
        (statement nested).run cursor = none) ∧
      (statementList (Nested.ofText text)).run
          (Cursor.onTable (Nested.ofText text) text offset misread) =
        some ([], Cursor.onTable (Nested.ofText text) text offset misread) := by
  constructor
  · intro length taken word reserved
    exact Lexeme.name_ne_reserved taken reserved
  · intro word clause spelled
    have ahead : ClauseAhead (text.drop offset) := ⟨word, clause, spelled⟩
    constructor
    · intro nested cursor same
      rw [← same] at ahead
      exact statement_fails ahead
    · exact statementList_stops ahead misread

/-- The list inside the alternative form of a conditional ends at a word in capital letters. -/
theorem reserved_word_ends_statements_else :
    WordAhead "else" ("<?php if ($a): ELSE: endif;".toList.drop 15) ∧
    (statementList (Nested.ofText "<?php if ($a): ELSE: endif;".toList)).run
        (Cursor.onTable (Nested.ofText "<?php if ($a): ELSE: endif;".toList)
          "<?php if ($a): ELSE: endif;".toList 15 false) =
      some ([], Cursor.onTable (Nested.ofText "<?php if ($a): ELSE: endif;".toList)
        "<?php if ($a): ELSE: endif;".toList 15 false) := by
  have ahead : WordAhead "else" ("<?php if ($a): ELSE: endif;".toList.drop 15) :=
    ⟨"ELSE".toList, ": endif;".toList, rfl, rfl, rfl⟩
  exact ⟨ahead, ((reserved_word_ends_statements _ 15 false).2 "else" (by decide) ahead).2⟩

/-- A letter beyond U+FFFF is no name character in itself, but a name takes it where case is
ignored, and so the word before it is not reserved. -/
theorem statement_at_word_before_farLetter :
    (∃ spelled rest, ("<?php else".toList ++ [Char.ofNat 0x1DF95, ';']).drop 6 = spelled ++ rest ∧
      spelled.map Char.toLower = "else".toList ∧ Lexeme.startsWith isNamePart rest = false) ∧
    ((statement (Nested.ofText ("<?php else".toList ++ [Char.ofNat 0x1DF95, ';']))).run
      (Cursor.onTable (Nested.ofText ("<?php else".toList ++ [Char.ofNat 0x1DF95, ';']))
        ("<?php else".toList ++ [Char.ofNat 0x1DF95, ';']) 6 false)).isSome = true :=
  ⟨⟨"else".toList, [Char.ofNat 0x1DF95, ';'], rfl, rfl, rfl⟩, rfl⟩

end Reader

end PhpAudit
