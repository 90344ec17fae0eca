import PhpAudit.Json.Reader
import PhpAudit.Json.Writer

/-!
The parts of JSON text that hold no others: white space, texts in quotes and whole numbers. What is
written for a text is read character by character, each from its own escape, and what is written for
a number up to the comma or the line feed behind it.
-/

namespace PhpAudit

namespace Json

/-! White space -/

theorem Place.skipSpace_append (blanks : List Char) {rest : List Char} (offset : Nat)
    (blank : ∀ character ∈ blanks, isSpace character = true)
    (stops : ∀ character ∈ rest.head?, isSpace character = false) :
    skipSpace ⟨offset, blanks ++ rest⟩ = ⟨offset + blanks.length, rest⟩ := by
  have none : rest.takeWhile isSpace = [] := by
    cases rest with
    | nil => rfl
    | cons character more => simp [stops character rfl]
  have taken : (blanks ++ rest).takeWhile isSpace = blanks := by
    rw [List.takeWhile_append_of_pos blank, none, List.append_nil]
  simp [skipSpace, drop, taken]

theorem Place.skipSpace_cons {first : Char} (solid : isSpace first = false) (offset : Nat)
    (rest : List Char) : skipSpace ⟨offset, first :: rest⟩ = ⟨offset, first :: rest⟩ :=
  skipSpace_append [] offset (by simp) (by rintro _ ⟨⟩; exact solid)

/-! Texts -/

section Text

variable {start : Nat} {rest more after : List Char}

/-- From any offset on, the rest of a text in quotes is read as the given characters, up to what
stands behind it. -/
def ReadsText (start : Nat) (rest text after : List Char) : Prop :=
  ∀ offset, ∃ reached, textFrom start offset 0 rest = .ok (text, ⟨reached, after⟩)

theorem ReadsText.ne_nil (reads : ReadsText start rest more after) : rest ≠ [] := by
  rintro rfl
  obtain ⟨reached, read⟩ := reads 0
  cases read

theorem textFrom_skip (start offset : Nat) (skipped rest : List Char) :
    textFrom start offset skipped.length (skipped ++ rest) =
      textFrom start (offset + skipped.length) 0 rest := by
  induction skipped generalizing offset with
  | nil => rfl
  | cons character skipped ih =>
      rw [List.length_cons, List.cons_append, textFrom, ih, Nat.add_assoc, Nat.add_comm 1]

theorem ReadsText.escape {character : Char} {body : List Char}
    (reads : ReadsText start rest more after)
    (escaped : ∀ offset, Json.escape (body ++ rest) offset start = .ok (character, body.length)) :
    ReadsText start ('\\' :: body ++ rest) (character :: more) after := by
  intro offset
  obtain ⟨reached, read⟩ := reads (offset + 1 + body.length)
  refine ⟨reached, ?_⟩
  rw [List.cons_append, textFrom]
  simp only [Char.reduceBEq, Bool.false_eq_true, if_false, if_true, escaped]
  rw [textFrom_skip, read]

theorem ReadsText.plain {character : Char} (reads : ReadsText start rest more after)
    (quote : character ≠ '"') (backslash : character ≠ '\\') (printed : 0x1F < character.toNat) :
    ReadsText start (character :: rest) (character :: more) after := by
  intro offset
  obtain ⟨reached, read⟩ := reads (offset + 1)
  refine ⟨reached, ?_⟩
  have above : ¬ character.toNat ≤ 0x1F := by omega
  rw [textFrom]
  simp only [beq_false_of_ne quote, beq_false_of_ne backslash, above, Bool.false_eq_true, if_false]
  rw [read]

theorem hexValue_hexDigit : ∀ digit < 16, hexValue (hexDigit digit) = some digit := by decide

theorem hexCode_hexDigits {code : Nat} (small : code < 0x10000) (rest : List Char) :
    hexCode (hexDigits 4 code ++ rest) = some code := by
  have whole : ((code / 16 / 16 / 16 % 16 * 16 + code / 16 / 16 % 16) * 16 + code / 16 % 16) * 16 +
      code % 16 = code := by omega
  simp only [hexDigits, List.nil_append, List.cons_append, hexCode,
    hexValue_hexDigit _ (Nat.mod_lt _ (by decide : 0 < 16)), bind_pure_comp, Option.bind_eq_bind,
    Option.bind_some, Option.map_eq_map, Option.map_some, whole]

theorem longerThan_append {Value : Type} (first second : List Value) (filled : second ≠ []) :
    longerThan first.length (first ++ second) = true := by
  induction first with
  | nil =>
      obtain ⟨head, tail, rfl⟩ := List.exists_cons_of_ne_nil filled
      rfl
  | cons head first ih => simpa [longerThan] using ih

@[simp] theorem length_hexDigits (width value : Nat) : (hexDigits width value).length = width := by
  induction width generalizing value with
  | zero => rfl
  | succ width ih => simp [hexDigits, ih]

/-- An escape with the code of a character that is not half of a pair. -/
theorem escape_code {code : Nat} (small : code < 0x10000) (single : code < 0xD800 ∨ 0xDFFF < code)
    (filled : rest ≠ []) (offset : Nat) :
    escape ('u' :: hexDigits 4 code ++ rest) offset start = .ok (Char.ofNat code, 5) := by
  have high : isHighSurrogate code = false := by
    simp only [isHighSurrogate, Bool.and_eq_false_iff, decide_eq_false_iff_not]
    omega
  have low : isLowSurrogate code = false := by
    simp only [isLowSurrogate, Bool.and_eq_false_iff, decide_eq_false_iff_not]
    omega
  have long : longerThan 4 (hexDigits 4 code ++ rest) = true := by
    simpa using longerThan_append (hexDigits 4 code) rest filled
  have alone : secondHalf code rest (offset + 6) = .ok (Char.ofNat code, 0) := by
    unfold secondHalf
    split <;> simp [high, low, charOf]
  have dropped : (hexDigits 4 code ++ rest).drop 4 = rest := by simp
  rw [List.cons_append, escape, if_pos long]
  simp only [hexCode_hexDigits small, dropped, alone]
  rfl

/-- Two escapes with the halves of a pair. -/
theorem escape_pair {high low : Nat} (highBounds : 0xD800 ≤ high ∧ high ≤ 0xDBFF)
    (lowBounds : 0xDC00 ≤ low ∧ low ≤ 0xDFFF) (filled : rest ≠ []) (offset : Nat) :
    escape ('u' :: hexDigits 4 high ++ (codeEscape low ++ rest)) offset start =
      .ok (Char.ofNat (joinSurrogates high low), 11) := by
  have highSmall : high < 0x10000 := by omega
  have lowSmall : low < 0x10000 := by omega
  have isHigh : isHighSurrogate high = true := by simpa [isHighSurrogate] using highBounds
  have isLow : isLowSurrogate low = true := by simpa [isLowSurrogate] using lowBounds
  have long : longerThan 4 (hexDigits 4 high ++ (codeEscape low ++ rest)) = true := by
    simpa using longerThan_append (hexDigits 4 high) (codeEscape low ++ rest) (by simp [codeEscape])
  have longer : longerThan 6 (codeEscape low ++ rest) = true := by
    simpa [codeEscape] using longerThan_append (codeEscape low) rest filled
  have dropped : (hexDigits 4 high ++ (codeEscape low ++ rest)).drop 4 = codeEscape low ++ rest := by
    simp
  have both : secondHalf high (codeEscape low ++ rest) (offset + 6) =
      .ok (Char.ofNat (joinSurrogates high low), 6) := by
    have shape : codeEscape low ++ rest = '\\' :: 'u' :: (hexDigits 4 low ++ rest) := rfl
    rw [shape] at longer ⊢
    simp only [secondHalf, isHigh, longer, hexCode_hexDigits lowSmall, isLow,
      Bool.and_self, if_true]
  generalize Char.ofNat (joinSurrogates high low) = character at both ⊢
  rw [List.cons_append, escape, if_pos long]
  simp only [hexCode_hexDigits highSmall, dropped, both]
  rfl

/-- The characters that are written as a backslash and a letter. -/
def shortEscapes : List (Char × Char) :=
  [('"', '"'), ('\\', '\\'), ('\n', 'n'), ('\r', 'r'), ('\t', 't'), ('\x08', 'b'), ('\x0c', 'f')]

/-- The ways in which a character is written inside quotes. -/
inductive Escaping : Char → List Char → Prop
  | short {character letter : Char} (known : (character, letter) ∈ shortEscapes) :
      Escaping character ['\\', letter]
  | itself {character : Char} (quote : character ≠ '"') (backslash : character ≠ '\\')
      (printed : 0x20 ≤ character.toNat ∧ character.toNat ≤ 0x7E) :
      Escaping character [character]
  | code {character : Char} (small : character.toNat < 0x10000) :
      Escaping character (codeEscape character.toNat)
  | pair {character : Char} (large : 0x10000 ≤ character.toNat) :
      Escaping character (codeEscape (0xD800 + (character.toNat - 0x10000) / 0x400) ++
        codeEscape (0xDC00 + (character.toNat - 0x10000) % 0x400))

theorem escaping_escaped (character : Char) : Escaping character (Json.escaped character) := by
  unfold Json.escaped
  iterate 7
    split
    · rename_i same
      rw [beq_iff_eq.mp same]
      exact .short (by decide)
  rename_i notQuote notBackslash _ _ _ _ _
  split
  · rename_i printed
    simp only [Bool.and_eq_true, decide_eq_true_eq] at printed
    exact .itself (by simpa using notQuote) (by simpa using notBackslash) printed
  · dsimp only
    split
    · rename_i small
      exact .code small
    · rename_i large
      exact .pair (Nat.le_of_not_lt large)

theorem escape_short {character letter : Char} (known : (character, letter) ∈ shortEscapes)
    (offset : Nat) : escape (letter :: rest) offset start = .ok (character, 1) := by
  simp only [shortEscapes, List.mem_cons, Prod.mk.injEq, List.not_mem_nil, or_false] at known
  rcases known with ⟨rfl, rfl⟩ | ⟨rfl, rfl⟩ | ⟨rfl, rfl⟩ | ⟨rfl, rfl⟩ | ⟨rfl, rfl⟩ | ⟨rfl, rfl⟩ |
    ⟨rfl, rfl⟩ <;> rfl

theorem ReadsText.escaped (reads : ReadsText start rest more after) (character : Char) :
    ReadsText start (Json.escaped character ++ rest) (character :: more) after := by
  have filled := reads.ne_nil
  have valid : character.toNat < 0xD800 ∨ 0xDFFF < character.toNat ∧ character.toNat < 0x110000 :=
    character.valid
  have same : Char.ofNat character.toNat = character := Char.ofNat_toNat character
  have written := escaping_escaped character
  generalize Json.escaped character = text at written ⊢
  cases written with
  | short known => exact reads.escape fun offset => escape_short known offset
  | itself quote backslash printed => exact reads.plain quote backslash (by omega)
  | code small =>
      refine reads.escape fun offset => (escape_code small (by omega) filled offset).trans ?_
      rw [same]
      simp
  | pair large =>
      generalize character.toNat = code at valid same large ⊢
      have joined : joinSurrogates (0xD800 + (code - 0x10000) / 0x400)
          (0xDC00 + (code - 0x10000) % 0x400) = code := by
        unfold joinSurrogates
        omega
      have highBounds : 0xD800 ≤ 0xD800 + (code - 0x10000) / 0x400 ∧
          0xD800 + (code - 0x10000) / 0x400 ≤ 0xDBFF := by omega
      have lowBounds : 0xDC00 ≤ 0xDC00 + (code - 0x10000) % 0x400 ∧
          0xDC00 + (code - 0x10000) % 0x400 ≤ 0xDFFF := by omega
      refine reads.escape fun offset => ?_
      rw [List.append_eq, List.append_assoc]
      refine (escape_pair highBounds lowBounds filled offset).trans ?_
      rw [joined, same]
      simp [codeEscape]

theorem readsText_flatMap_escaped (start : Nat) (text after : List Char) :
    ReadsText start (text.flatMap Json.escaped ++ '"' :: after) text after := by
  induction text with
  | nil => exact fun offset => ⟨offset + 1, rfl⟩
  | cons character text ih =>
      rw [List.flatMap_cons, List.append_assoc]
      exact ih.escaped character

theorem toList_quote (text : String) :
    (quote text).toList = '"' :: (text.toList.flatMap Json.escaped ++ ['"']) := by
  simp [quote]

theorem quotedText_quote (text : String) (offset : Nat) (after : List Char) :
    ∃ reached, quotedText ⟨offset, (quote text).toList ++ after⟩ = .ok (text, ⟨reached, after⟩) := by
  obtain ⟨reached, read⟩ := readsText_flatMap_escaped offset text.toList after (offset + 1)
  refine ⟨reached, ?_⟩
  rw [toList_quote, quotedText]
  simp [read]

end Text

/-! Numbers -/

/-- What stands behind a written value. -/
def Separated (rest : List Char) : Prop :=
  ∀ character ∈ rest.head?, character = ',' ∨ character = '\n'

theorem Separated.fractionDigits_eq {rest : List Char} (separated : Separated rest) :
    fractionDigits rest = [] := by
  cases rest with
  | nil => rfl
  | cons character more =>
      rcases separated character rfl with rfl | rfl <;> rfl

theorem Separated.exponentPart_eq {rest : List Char} (separated : Separated rest) :
    exponentPart rest = none := by
  cases rest with
  | nil => rfl
  | cons character more =>
      rcases separated character rfl with rfl | rfl <;> rfl

theorem Separated.takeWhile_isDigit {digits rest : List Char} (separated : Separated rest)
    (each : ∀ digit ∈ digits, digit.isDigit = true) :
    (digits ++ rest).takeWhile Char.isDigit = digits := by
  rw [List.takeWhile_append_of_pos each]
  cases rest with
  | nil => simp
  | cons character more =>
      rcases separated character rfl with rfl | rfl <;> simp [Char.isDigit]

theorem naturalOf_toDigits (value : Nat) : naturalOf (Nat.toDigits 10 value) = value := by
  have same : naturalOf (Nat.toDigits 10 value) = Nat.ofDigitChars 10 (Nat.toDigits 10 value) 0 := by
    rw [naturalOf, Nat.ofDigitChars_eq_foldl]
    simp only [Nat.mul_comm]
  rw [same, Nat.ofDigitChars_toDigits (by decide) (by decide)]

theorem toDigits_eq_cons (value : Nat) :
    ∃ digit more, Nat.toDigits 10 value = digit :: more ∧ digit.isDigit = true := by
  obtain ⟨digit, more, shape⟩ :=
    List.exists_cons_of_ne_nil (Nat.toDigits_ne_nil (b := 10) (n := value))
  have member : digit ∈ Nat.toDigits 10 value := by simp [shape]
  exact ⟨digit, more, shape, Nat.isDigit_of_mem_toDigits (by decide) (by decide) member⟩

theorem head?_toDigits_append (value : Nat) (rest : List Char) :
    (Nat.toDigits 10 value ++ rest).head? = (Nat.toDigits 10 value).head? := by
  obtain ⟨digit, more, shape, -⟩ := toDigits_eq_cons value
  rw [shape]
  rfl

theorem head?_toDigits {value : Nat} (positive : 0 < value) :
    (Nat.toDigits 10 value).head? ≠ some '0' := by
  induction value using Nat.strongRecOn with
  | ind value ih =>
      by_cases small : value < 10
      · rw [Nat.toDigits_of_lt_base small, List.head?_cons]
        simp only [ne_eq, Option.some.injEq, Nat.digitChar_eq_zero]
        omega
      · rw [Nat.toDigits_of_base_le (by decide) (by omega), head?_toDigits_append]
        exact ih (value / 10) (by omega) (by omega)

theorem wholeDigits_toDigits (value : Nat) {rest : List Char} (separated : Separated rest) :
    wholeDigits (Nat.toDigits 10 value ++ rest) = Nat.toDigits 10 value := by
  by_cases zero : value = 0
  · subst zero
    rw [Nat.toDigits_zero]
    rfl
  · have taken : (Nat.toDigits 10 value ++ rest).takeWhile Char.isDigit = Nat.toDigits 10 value :=
      separated.takeWhile_isDigit fun digit member =>
        Nat.isDigit_of_mem_toDigits (by decide) (by decide) member
    have first := head?_toDigits (Nat.pos_of_ne_zero zero)
    unfold wholeDigits
    split
    · rename_i tail shape
      have head := congrArg List.head? shape
      rw [head?_toDigits_append] at head
      exact absurd head first
    · exact taken

/-- A whole number with its digits, behind its sign. -/
theorem number_eq (size : Nat) {rest : List Char} (negative : Bool) (separated : Separated rest)
    (offset : Nat) :
    ∃ reached, number ⟨offset, (if negative then ['-'] else []) ++ Nat.toDigits 10 size ++ rest⟩ =
      if digitLimit < (Nat.toDigits 10 size).length then
        .error ⟨.tooManyDigits (Nat.toDigits 10 size).length, offset⟩
      else .ok (.int (if negative then -(size : Int) else size), ⟨reached, rest⟩) := by
  have filled : (Nat.toDigits 10 size).isEmpty = false := by simp [Nat.toDigits_ne_nil]
  have dropped : (Nat.toDigits 10 size ++ rest).drop (Nat.toDigits 10 size).length = rest := by simp
  unfold number
  cases negative with
  | true =>
      refine ⟨offset + (1 + (Nat.toDigits 10 size).length), ?_⟩
      simp [wholeDigits_toDigits _ separated, filled, separated.fractionDigits_eq,
        separated.exponentPart_eq, dropped, naturalOf_toDigits, Place.drop, Place.fail,
        Nat.add_comm 1]
  | false =>
      refine ⟨offset + (Nat.toDigits 10 size).length, ?_⟩
      obtain ⟨digit, more, shape, isDigit⟩ := toDigits_eq_cons size
      simp only [Bool.false_eq_true, if_false, List.nil_append]
      split
      · rename_i sign
        have head := congrArg List.head? sign
        rw [head?_toDigits_append, shape] at head
        cases head
        cases isDigit
      simp [wholeDigits_toDigits _ separated, filled, separated.fractionDigits_eq,
        separated.exponentPart_eq, dropped, naturalOf_toDigits, Place.drop, Place.fail]

end Json

end PhpAudit
