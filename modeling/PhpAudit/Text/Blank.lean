/-!
White space in the sense of the Unicode property of that name: the characters that may
separate the words of a program.
-/

namespace PhpAudit

/-- The 25 characters with the property White_Space. -/
def isBlank (character : Char) : Bool :=
  let code := character.toNat
  (9 ≤ code && code ≤ 13) || code == 0x20 || code == 0x85 || code == 0xA0 || code == 0x1680 ||
    (0x2000 ≤ code && code ≤ 0x200A) || code == 0x2028 || code == 0x2029 || code == 0x202F ||
    code == 0x205F || code == 0x3000

/-- The separators of information U+001C to U+001F count as space where text is trimmed. -/
def isTrimmed (character : Char) : Bool :=
  isBlank character || (0x1C ≤ character.toNat && character.toNat ≤ 0x1F)

/-- The text without the space at both ends. -/
def trim (text : List Char) : List Char :=
  ((text.dropWhile isTrimmed).reverse.dropWhile isTrimmed).reverse

theorem isBlank_of_isWhitespace {character : Char} (white : character.isWhitespace = true) :
    isBlank character = true := by
  simp only [Char.isWhitespace, Bool.or_eq_true, decide_eq_true_eq] at white
  rcases white with ((white | white) | white) | white <;> subst white <;> decide

end PhpAudit
