import PhpAudit.Text.Utf8

/-!
Text in UTF-8 and back. The bytes of a text are read as its characters, by the reading that replaces
bad bytes and by the one that refuses them.
-/

namespace PhpAudit

namespace Utf8

def encode (text : List Char) : List UInt8 := text.flatMap String.utf8EncodeChar

@[simp] theorem encode_nil : encode [] = [] := rfl

@[simp] theorem encode_cons (character : Char) (rest : List Char) :
    encode (character :: rest) = String.utf8EncodeChar character ++ encode rest := rfl

/-! One character -/

theorem toNat_byte {value : Nat} (small : value < 256) : (UInt8.ofNat value).toNat = value :=
  UInt8.toNat_ofNat_of_lt' small

theorem lead_one {value : Nat} (high : value ≤ 0x7F) :
    lead (UInt8.ofNat value) = .inl (.char (Char.ofNat value)) := by
  rw [lead, toNat_byte (by omega)]
  exact if_pos (by omega)

theorem lead_two {value : Nat} (low : 0xC2 ≤ value) (high : value < 0xE0) :
    lead (UInt8.ofNat value) = .inr ⟨[UInt8.ofNat value], value - 0xC0, 1, 0x80, 0xBF⟩ := by
  rw [lead, toNat_byte (by omega)]
  rw [if_neg (by omega), if_neg (by omega), if_pos high]

/-- After the first lead byte of three the next byte is high, so that no shorter form would do, and
after the last but two it is low, so that the code is no surrogate. -/
theorem lead_three {value : Nat} (low : 0xE0 ≤ value) (high : value < 0xF0) :
    ∃ least most, lead (UInt8.ofNat value) =
        .inr ⟨[UInt8.ofNat value], value - 0xE0, 2, least, most⟩ ∧
      ∀ digit < 64, (value = 0xE0 → 32 ≤ digit) → (value = 0xED → digit < 32) →
        least ≤ digit + 0x80 ∧ digit + 0x80 ≤ most := by
  rw [lead, toNat_byte (by omega)]
  rw [if_neg (by omega), if_neg (by omega), if_neg (by omega)]
  by_cases first : value = 0xE0
  · subst first
    exact ⟨_, _, rfl, fun digit bound above _ => by have := above rfl; omega⟩
  by_cases surrogate : value = 0xED
  · subst surrogate
    exact ⟨_, _, rfl, fun digit bound _ under => by have := under rfl; omega⟩
  rw [if_neg (by simpa using first), if_neg (by simpa using surrogate), if_pos high]
  exact ⟨_, _, rfl, fun digit bound _ _ => by omega⟩

/-- After the first lead byte of four the next byte is high, so that no shorter form would do, and
after the last one it is low, so that the code is not beyond all characters. -/
theorem lead_four {value : Nat} (low : 0xF0 ≤ value) (high : value ≤ 0xF4) :
    ∃ least most, lead (UInt8.ofNat value) =
        .inr ⟨[UInt8.ofNat value], value - 0xF0, 3, least, most⟩ ∧
      ∀ digit < 64, (value = 0xF0 → 16 ≤ digit) → (value = 0xF4 → digit < 16) →
        least ≤ digit + 0x80 ∧ digit + 0x80 ≤ most := by
  rw [lead, toNat_byte (by omega)]
  rw [if_neg (by omega), if_neg (by omega), if_neg (by omega),
    if_neg (by simp only [beq_iff_eq]; omega), if_neg (by simp only [beq_iff_eq]; omega),
    if_neg (by omega)]
  by_cases first : value = 0xF0
  · subst first
    exact ⟨_, _, rfl, fun digit bound above _ => by have := above rfl; omega⟩
  rw [if_neg (by simpa using first)]
  by_cases last : value = 0xF4
  · subst last
    exact ⟨_, _, rfl, fun digit bound _ under => by have := under rfl; omega⟩
  rw [if_pos (by omega)]
  exact ⟨_, _, rfl, fun digit bound _ _ => by omega⟩

section Continuation

variable {bytes : List UInt8} {code owed low high digit : Nat}

theorem Pending.accepts_digit (small : digit < 64)
    (bounds : low ≤ digit + 0x80 ∧ digit + 0x80 ≤ high) :
    accepts ⟨bytes, code, owed, low, high⟩ (UInt8.ofNat (digit + 0x80)) = true := by
  rw [accepts, toNat_byte (by omega)]
  simpa using bounds

theorem piecesFrom_last (small : digit < 64)
    (bounds : low ≤ digit + 0x80 ∧ digit + 0x80 ≤ high) (rest : List UInt8) :
    piecesFrom (some ⟨bytes, code, 1, low, high⟩) (UInt8.ofNat (digit + 0x80) :: rest) =
      .char (Char.ofNat (code * 64 + digit)) :: piecesFrom none rest := by
  rw [piecesFrom, if_pos (Pending.accepts_digit small bounds), Pending.add, toNat_byte (by omega),
    Nat.add_sub_cancel]
  rfl

theorem piecesFrom_more (small : digit < 64)
    (bounds : low ≤ digit + 0x80 ∧ digit + 0x80 ≤ high) (rest : List UInt8) :
    piecesFrom (some ⟨bytes, code, owed + 2, low, high⟩) (UInt8.ofNat (digit + 0x80) :: rest) =
      piecesFrom (some ⟨UInt8.ofNat (digit + 0x80) :: bytes, code * 64 + digit, owed + 1, 0x80,
        0xBF⟩) rest := by
  have more : ¬ owed + 2 ≤ 1 := by omega
  rw [piecesFrom, if_pos (Pending.accepts_digit small bounds), Pending.add, toNat_byte (by omega),
    Nat.add_sub_cancel, if_neg more]
  rfl

end Continuation

theorem piecesFrom_of_lead {byte : UInt8} {pending : Pending} (started : lead byte = .inr pending)
    (rest : List UInt8) :
    piecesFrom none (byte :: rest) = piecesFrom (some pending) rest := by
  rw [piecesFrom, started]

theorem piecesFrom_encodeChar (character : Char) (rest : List UInt8) :
    piecesFrom none (String.utf8EncodeChar character ++ rest) =
      .char character :: piecesFrom none rest := by
  have valid : character.val.toNat < 0xD800 ∨
      0xDFFF < character.val.toNat ∧ character.val.toNat < 0x110000 := character.valid
  have itself : Char.ofNat character.val.toNat = character := Char.ofNat_toNat character
  unfold String.utf8EncodeChar
  generalize character.val.toNat = code at valid itself ⊢
  dsimp only
  -- one case for each number of bytes; the digits of the code to the base 64 are put together again
  split
  · rename_i one
    simp only [List.cons_append, List.nil_append, piecesFrom, lead_one one, itself]
  split
  · rw [List.cons_append, piecesFrom_of_lead (lead_two (by omega) (by omega)), List.cons_append,
      piecesFrom_last (by omega) ⟨by omega, by omega⟩, List.nil_append]
    have whole : (code / 64 % 32 + 192 - 192) * 64 + code % 64 = code := by omega
    rw [whole, itself]
  split
  · obtain ⟨least, most, started, bounds⟩ :=
      lead_three (show 0xE0 ≤ code / 4096 % 16 + 224 by omega) (by omega)
    rw [List.cons_append, piecesFrom_of_lead started, List.cons_append,
      piecesFrom_more (by omega) (bounds _ (by omega) (by omega) (by omega)),
      List.cons_append, piecesFrom_last (by omega) ⟨by omega, by omega⟩, List.nil_append]
    have whole : ((code / 4096 % 16 + 224 - 224) * 64 + code / 64 % 64) * 64 + code % 64 = code := by
      omega
    rw [whole, itself]
  · obtain ⟨least, most, started, bounds⟩ :=
      lead_four (show 0xF0 ≤ code / 262144 % 8 + 240 by omega) (by omega)
    rw [List.cons_append, piecesFrom_of_lead started, List.cons_append,
      piecesFrom_more (by omega) (bounds _ (by omega) (by omega) (by omega)),
      List.cons_append, piecesFrom_more (by omega) ⟨by omega, by omega⟩,
      List.cons_append, piecesFrom_last (by omega) ⟨by omega, by omega⟩, List.nil_append]
    have whole : (((code / 262144 % 8 + 240 - 240) * 64 + code / 4096 % 64) * 64 +
        code / 64 % 64) * 64 + code % 64 = code := by
      omega
    rw [whole, itself]

/-! Whole texts -/

theorem pieces_encode (text : List Char) : pieces (encode text) = text.map .char := by
  unfold pieces
  induction text with
  | nil => rfl
  | cons character rest ih => rw [encode_cons, piecesFrom_encodeChar, ih, List.map_cons]

theorem decodeLossy_encode (text : List Char) : decodeLossy (encode text) = text := by
  rw [decodeLossy, pieces_encode, List.map_map]
  exact List.map_id text

theorem encode_injective {first second : List Char} (same : encode first = encode second) :
    first = second := by
  rw [← decodeLossy_encode first, same, decodeLossy_encode]

end Utf8

/-! Line ends -/

theorem unifyNewlines_eq_self_iff (file : List Char) :
    unifyNewlines file = file ↔ '\r' ∉ file := by
  fun_induction unifyNewlines file with
  | case1 => simp
  | case2 rest ih => simp
  | case3 rest single ih => simp
  | case4 character rest pair lone ih =>
      rw [List.cons_inj_right, ih, List.mem_cons, not_or]
      constructor
      · intro inner
        exact ⟨fun carriage => lone carriage.symm, inner⟩
      · intro both
        exact both.2

end PhpAudit
