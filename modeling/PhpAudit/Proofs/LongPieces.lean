import Mathlib.Data.List.TakeWhile
import PhpAudit.Proofs.KeptRules

/-!
The rules for pieces of many characters: texts in quotes, heredocs, attributes and tags. Such a piece
ends with a mark of its own, so it is not seen from inside what follows it.
-/

namespace PhpAudit

namespace Lexeme

/-! Pieces with a letter in front -/

/-- A rule whose pieces may have the letter `b` in front of them. Where its pieces open is settled by
the text in front of a break, and so is where they do so behind the letter. -/
structure Lettered (rule : Lexeme) (opens doubled : List Char → Bool) : Prop where
  empty : opens [] = false
  opening : ∀ text, opens text = true → rule text = piece text
  other : ∀ text, opens text = false → startsWith (fun first => first == 'b' || first == 'B') text =
    false → rule text = none
  letter : ∀ letter rest, letter = 'b' ∨ letter = 'B' →
    rule (letter :: rest) = if doubled rest then (rule rest).map (· + 1) else none
  opens_of_doubled : ∀ text, doubled text = true → opens text = true
  settled : Settled opens
  settledDoubled : Settled doubled
  closed : ∀ text length, opens text = true → rule text = some length →
    0 < length ∧ length ≤ text.length ∧ ∀ tail, Breaks tail → rule (text ++ tail) = some length

namespace Lettered

variable {rule : Lexeme} {opens doubled : List Char → Bool}

theorem opened (lettered : Lettered rule opens doubled) {text : List Char}
    (whole : code text = true) (opened : opens text = true) :
    ∃ length, rule text = some length ∧ code (text.drop length) = true := by
  cases text with
  | nil =>
      rw [lettered.empty] at opened
      cases opened
  | cons character rest =>
      obtain ⟨more, first, -, behind⟩ := code_cons whole
      exact ⟨more + 1, (lettered.opening _ opened).trans first, behind⟩

theorem code_behind {letter : Char} (known : letter = 'b' ∨ letter = 'B') {rest : List Char}
    (whole : code (letter :: rest) = true) : code rest = true := by
  have plain : letter ∉ signs := by rcases known with rfl | rfl <;> decide
  exact code_single whole (piece_plain plain rest)

theorem kept (lettered : Lettered rule opens doubled) : rule.Kept where
  moves := by
    intro text length taken
    by_cases opened : opens text = true
    · exact ⟨(lettered.closed text length opened taken).1,
        (lettered.closed text length opened taken).2.1⟩
    rw [Bool.not_eq_true] at opened
    by_cases front : startsWith (fun first => first == 'b' || first == 'B') text = true
    · obtain ⟨letter, rest, rfl, known⟩ := startsWith_cons front
      rw [lettered.letter letter rest (by simpa using known)] at taken
      split at taken
      · rename_i inner
        obtain ⟨size, found, rfl⟩ := Option.map_eq_some_iff.mp taken
        have bound := (lettered.closed rest size (lettered.opens_of_doubled rest inner) found).2.1
        exact ⟨Nat.succ_pos size, Nat.succ_le_succ bound⟩
      · cases taken
    · rw [lettered.other text opened (by simpa using front)] at taken
      cases taken
  settled := by
    have opened : ∀ text tail, code text = true → Breaks tail → opens text = true →
        rule (text ++ tail) = rule text := by
      intro text tail whole breaking opens
      obtain ⟨length, found, -⟩ := lettered.opened whole opens
      rw [found, (lettered.closed text length opens found).2.2 tail breaking]
    intro ahead tail whole breaking
    by_cases open' : opens ahead = true
    · exact opened ahead tail whole breaking open'
    rw [Bool.not_eq_true] at open'
    have openTail := lettered.settled ahead tail breaking
    rw [open'] at openTail
    have same : startsWith (fun first => first == 'b' || first == 'B') (ahead ++ tail) =
        startsWith (fun first => first == 'b' || first == 'B') ahead :=
      settled_startsWith (by decide) ahead tail breaking
    by_cases front : startsWith (fun first => first == 'b' || first == 'B') ahead = true
    · obtain ⟨letter, rest, rfl, known⟩ := startsWith_cons front
      have known : letter = 'b' ∨ letter = 'B' := by simpa using known
      rw [List.cons_append, lettered.letter letter _ known, lettered.letter letter _ known,
        lettered.settledDoubled rest tail breaking]
      split
      · rename_i inner
        rw [opened rest tail (code_behind known whole) breaking
          (lettered.opens_of_doubled rest inner)]
      · rfl
    · rw [Bool.not_eq_true] at front
      rw [lettered.other ahead open' front, lettered.other _ openTail (same.trans front)]
  whole := by
    intro ahead length whole taken
    by_cases opened : opens ahead = true
    · obtain ⟨size, found, behind⟩ := lettered.opened whole opened
      rw [found] at taken
      cases taken
      exact behind
    rw [Bool.not_eq_true] at opened
    by_cases front : startsWith (fun first => first == 'b' || first == 'B') ahead = true
    · obtain ⟨letter, rest, rfl, known⟩ := startsWith_cons front
      have known : letter = 'b' ∨ letter = 'B' := by simpa using known
      rw [lettered.letter letter rest known] at taken
      split at taken
      · rename_i inner
        obtain ⟨size, found, rfl⟩ := Option.map_eq_some_iff.mp taken
        obtain ⟨other, same, behind⟩ :=
          lettered.opened (code_behind known whole) (lettered.opens_of_doubled rest inner)
        rw [found] at same
        cases same
        exact behind
      · cases taken
    · rw [lettered.other ahead opened (by simpa using front)] at taken
      cases taken

end Lettered

/-! Texts in quotes -/

theorem closed_quoted (quote : Char) (escaped : Bool) : (quoted quote escaped).Closed := by
  intro text
  induction text generalizing escaped with
  | nil =>
      intro length taken
      cases escaped <;> cases taken
  | cons character rest ih =>
      intro length taken
      cases escaped with
      | true =>
          simp only [quoted] at taken
          obtain ⟨shorter, others, rfl⟩ := Option.map_eq_some_iff.mp taken
          obtain ⟨bound, further⟩ := ih false shorter others
          refine ⟨Nat.succ_le_succ bound, fun tail => ?_⟩
          simp only [List.cons_append, quoted, further tail]
          rfl
      | false =>
          simp only [quoted] at taken
          by_cases ends : (character == quote) = true
          · simp only [ends, if_true, Option.some.injEq] at taken
            subst taken
            exact ⟨Nat.succ_pos _, fun tail => by simp only [List.cons_append, quoted, ends, if_true]⟩
          · simp only [ends, Bool.false_eq_true, if_false] at taken
            obtain ⟨shorter, others, rfl⟩ := Option.map_eq_some_iff.mp taken
            obtain ⟨bound, further⟩ := ih _ shorter others
            refine ⟨Nat.succ_le_succ bound, fun tail => ?_⟩
            simp only [List.cons_append, quoted, ends, Bool.false_eq_true, if_false, further tail]
            rfl

/-- The quotes that a text may stand in. -/
def quotes : List Char := ['\'', '"', '\x60']

theorem string_quote {quote : Char} (known : quote ∈ quotes) (rest : List Char) :
    string (quote :: rest) = (quoted quote false rest).map (· + 1) := by
  simp only [quotes, List.mem_cons, List.not_mem_nil, or_false] at known
  cases body : quoted quote false rest <;> rcases known with rfl | rfl | rfl <;>
    simp [string, anyOf, followedBy, binaryMark, perhaps, one, body, Nat.add_comm]

theorem string_other {character : Char} (other : character ∉ quotes)
    (letter : character ≠ 'b' ∧ character ≠ 'B') (rest : List Char) :
    string (character :: rest) = none := by
  simp only [quotes, List.mem_cons, List.not_mem_nil, or_false, not_or] at other
  simp [string, anyOf, followedBy, binaryMark, perhaps, one, other, letter]

theorem string_letter {letter : Char} (known : letter = 'b' ∨ letter = 'B') (rest : List Char) :
    string (letter :: rest) =
      if startsWith (fun quote => quote == '\'' || quote == '"') rest then
        (string rest).map (· + 1)
      else none := by
  cases rest with
  | nil => rcases known with rfl | rfl <;> rfl
  | cons quote body =>
      simp only [startsWith, Bool.or_eq_true, beq_iff_eq]
      split
      · rename_i double
        have mem : quote ∈ quotes := by
          simp only [quotes, List.mem_cons]
          exact double.imp_right Or.inl
        rw [string_quote mem]
        cases content : quoted quote false body <;> rcases known with rfl | rfl <;>
          rcases double with rfl | rfl <;>
          simp [string, anyOf, followedBy, binaryMark, perhaps, one, content, Nat.add_comm]
      · rename_i double
        rw [not_or] at double
        rcases known with rfl | rfl <;>
          simp [string, anyOf, followedBy, binaryMark, perhaps, one, double]

theorem piece_quote {quote : Char} (known : quote ∈ quotes) (rest : List Char) :
    piece (quote :: rest) = string (quote :: rest) := by
  simp only [quotes, List.mem_cons, List.not_mem_nil, or_false] at known
  rcases known with rfl | rfl | rfl <;> simp [piece]

theorem lettered_string : Lettered string (startsWith quotes.contains)
    (startsWith fun quote => quote == '\'' || quote == '"') where
  empty := rfl
  opening := by
    intro text opened
    obtain ⟨quote, rest, rfl, known⟩ := startsWith_cons opened
    exact (piece_quote (by simpa using known) rest).symm
  other := by
    intro text opened front
    cases text with
    | nil => rfl
    | cons character rest =>
        simp only [startsWith, Bool.or_eq_false_iff, beq_eq_false_iff_ne] at opened front
        exact string_other (by simpa using opened) front rest
  letter := fun letter rest known => string_letter known rest
  opens_of_doubled := by
    intro text doubled
    obtain ⟨quote, rest, rfl, known⟩ := startsWith_cons doubled
    simp only [Bool.or_eq_true, beq_iff_eq] at known
    rcases known with rfl | rfl <;> rfl
  settled := settled_startsWith (by decide)
  settledDoubled := settled_startsWith (by decide)
  closed := by
    intro text length opened taken
    obtain ⟨quote, rest, rfl, known⟩ := startsWith_cons opened
    have known : quote ∈ quotes := by simpa using known
    rw [string_quote known] at taken
    obtain ⟨size, body, rfl⟩ := Option.map_eq_some_iff.mp taken
    obtain ⟨bound, further⟩ := closed_quoted quote false rest size body
    refine ⟨Nat.succ_pos size, Nat.succ_le_succ bound, fun tail _ => ?_⟩
    rw [List.cons_append, string_quote known, further tail]
    rfl

theorem kept_string : string.Kept := lettered_string.kept

/-! Heredocs -/

theorem closed_lineEnd : lineEnd.Closed := by
  intro text length taken
  cases text with
  | nil => cases taken
  | cons first rest =>
      by_cases turn : first = '\r'
      · subst turn
        cases rest with
        | nil => cases taken
        | cons second others =>
            simp only [lineEnd, followedBy, perhaps, one, beq_self_eq_true, if_true,
              List.drop_succ_cons, List.drop_zero, List.cons_append] at taken ⊢
            split at taken
            · cases taken
              rename_i line
              exact ⟨by simp, fun _ => by simp [line]⟩
            · cases taken
      · simp only [lineEnd, followedBy, perhaps, one, beq_eq_false_iff_ne.mpr turn,
          Bool.false_eq_true, if_false, List.drop_zero, List.cons_append] at taken ⊢
        split at taken
        · cases taken
          rename_i line
          exact ⟨by simp, fun _ => by simp [line]⟩
        · cases taken

section Labels

variable {word text tail : List Char} {length : Nat}

theorem takeWhile_append {test : Char → Bool} (stops : ∃ character ∈ text, test character = false)
    (tail : List Char) : (text ++ tail).takeWhile test = text.takeWhile test := by
  induction text with
  | nil =>
      obtain ⟨character, mem, -⟩ := stops
      cases mem
  | cons first rest ih =>
      by_cases holds : test first = true
      · obtain ⟨character, mem, fails⟩ := stops
        have inside : character ∈ rest := by
          rcases List.mem_cons.mp mem with rfl | mem
          · rw [holds] at fails
            cases fails
          · exact mem
        rw [List.cons_append, List.takeWhile_cons_of_pos holds, List.takeWhile_cons_of_pos holds,
          ih ⟨character, inside, fails⟩]
      · rw [List.cons_append, List.takeWhile_cons_of_neg holds, List.takeWhile_cons_of_neg holds]

theorem not_break_of_wordChar (solid : ∀ letter ∈ word, isWordChar letter = true) :
    ∀ letter ∈ word, letter ∉ breaks := by
  have apart : ∀ other ∈ breaks, isWordChar other = false := by decide
  intro letter mem broken
  have both := solid letter mem
  rw [apart letter broken] at both
  cases both

/-- Where a line holds more than space, its closing label is settled by the text before a break. -/
theorem closingLabel_append (solid : ∀ letter ∈ word, isWordChar letter = true)
    (stops : ∃ character ∈ text, isTabOrSpace character = false) (breaking : Breaks tail) :
    closingLabel word (text ++ tail) = closingLabel word text := by
  have space : (text.takeWhile isTabOrSpace).length ≤ text.length :=
    (List.takeWhile_prefix isTabOrSpace).length_le
  simp only [closingLabel, before, followedBy, run, takeWhile_append stops tail,
    List.drop_append_of_le_length space,
    mark_append (not_break_of_wordChar solid) _ breaking]
  cases found : mark word (text.drop (text.takeWhile isTabOrSpace).length) with
  | none => rfl
  | some size =>
      have bound := (mark_length found).2
      rw [List.length_drop] at bound
      have apart := settled_startsWith
        (show ∀ character ∈ breaks, isWordChar character = false by decide)
      simp only [Option.map_some, List.drop_append_of_le_length
        (show (text.takeWhile isTabOrSpace).length + size ≤ text.length by omega),
        apart _ tail breaking]

theorem closingLabel_eq_some (taken : closingLabel word text = some length) :
    ∃ space, mark word (text.drop space) = some word.length ∧
      length = space + word.length ∧ length ≤ text.length := by
  simp only [closingLabel, before, followedBy, run] at taken
  split at taken
  · rename_i size found
    split at taken
    · cases taken
      obtain ⟨more, rest, rfl⟩ := Option.map_eq_some_iff.mp found
      obtain ⟨rfl, bound⟩ := mark_length rest
      rw [List.length_drop] at bound
      have space := (List.takeWhile_prefix (p := isTabOrSpace) (l := text)).length_le
      exact ⟨_, rest, rfl, by omega⟩
    · cases taken
  · cases taken

theorem mem_of_mark {first : Char} {more : List Char} {skipped : Nat}
    (found : mark (first :: more) (text.drop skipped) = some length) : first ∈ text := by
  have same := mark_eq_some found
  have mem : first ∈ text.drop skipped := by
    rw [same]
    exact List.mem_append_left _ List.mem_cons_self
  exact List.mem_of_mem_drop mem

/-- A body with its closing label holds more than space. -/
theorem exists_dark_of_body (solid : ∀ letter ∈ word, isWordChar letter = true) (long : word ≠ [])
    {lineStart : Bool} (taken : heredocBody word lineStart text = some length) :
    ∃ character ∈ text, isTabOrSpace character = false := by
  induction text generalizing lineStart length with
  | nil => cases taken
  | cons character rest ih =>
      simp only [heredocBody] at taken
      split at taken
      · rename_i size found
        split at found
        · obtain ⟨space, label, -, -⟩ := closingLabel_eq_some found
          cases word with
          | nil => exact absurd rfl long
          | cons first more =>
              refine ⟨first, mem_of_mark label, ?_⟩
              have apart := not_break_of_wordChar solid first List.mem_cons_self
              have spaces : ∀ other, isTabOrSpace other = true → other ∈ breaks := by
                intro other white
                simp only [isTabOrSpace, Bool.or_eq_true, beq_iff_eq] at white
                rcases white with rfl | rfl <;> decide
              exact Bool.eq_false_iff.mpr fun white => apart (spaces first white)
        · cases found
      · obtain ⟨shorter, others, rfl⟩ := Option.map_eq_some_iff.mp taken
        obtain ⟨dark, mem, fails⟩ := ih others
        exact ⟨dark, List.mem_cons_of_mem character mem, fails⟩

theorem heredocBody_append (solid : ∀ letter ∈ word, isWordChar letter = true) (long : word ≠ [])
    {lineStart : Bool} (taken : heredocBody word lineStart text = some length) :
    length ≤ text.length ∧
      ∀ tail, Breaks tail → heredocBody word lineStart (text ++ tail) = some length := by
  induction text generalizing lineStart length with
  | nil => cases taken
  | cons character rest ih =>
      have stops := exists_dark_of_body solid long taken
      have same : ∀ tail, Breaks tail →
          (if lineStart then closingLabel word (character :: (rest ++ tail)) else none) =
            if lineStart then closingLabel word (character :: rest) else none := by
        intro tail breaking
        rw [← List.cons_append, closingLabel_append solid stops breaking]
      simp only [heredocBody] at taken
      split at taken
      · rename_i size found
        cases taken
        refine ⟨?_, fun tail breaking => ?_⟩
        · split at found
          · obtain ⟨-, -, -, bound⟩ := closingLabel_eq_some found
            exact bound
          · cases found
        · simp only [List.cons_append, heredocBody, same tail breaking, found]
      · rename_i open'
        obtain ⟨shorter, others, rfl⟩ := Option.map_eq_some_iff.mp taken
        obtain ⟨bound, further⟩ := ih others
        refine ⟨Nat.succ_le_succ bound, fun tail breaking => ?_⟩
        simp only [List.cons_append, heredocBody, same tail breaking, open', further tail breaking]
        rfl

end Labels

/-- A heredoc behind its opening mark and the space there: the quote, the label, the quote and the
body. -/
def heredocTail (quote : List Char) : Lexeme := fun text =>
  match mark quote text with
  | none => none
  | some start =>
      match label (text.drop start) with
      | none => none
      | some size =>
          (followedBy (mark quote)
            (followedBy lineEnd (heredocBody ((text.drop start).take size) true))
            (text.drop (start + size))).map (start + size + ·)

def heredocTails : Lexeme := anyOf [heredocTail ['"'], heredocTail ['\''], heredocTail []]

theorem solid_label : label.Solid := .followedBy (.one (by decide)) (.run (by decide))

theorem label_word {text : List Char} {size : Nat} (taken : label text = some size) :
    text.take size ≠ [] ∧ ∀ letter ∈ text.take size, isWordChar letter = true := by
  cases text with
  | nil => cases taken
  | cons first rest =>
      simp only [label, followedBy, one, run] at taken
      split at taken
      · rename_i found
        split at found
        · rename_i start
          cases found
          cases taken
          have more : rest.take (rest.takeWhile isWordChar).length = rest.takeWhile isWordChar :=
            (List.prefix_iff_eq_take.mp (List.takeWhile_prefix isWordChar)).symm
          have word : (first :: rest).take (1 + (rest.takeWhile isWordChar).length) =
              first :: rest.takeWhile isWordChar := by
            rw [Nat.add_comm, List.take_succ_cons, more]
          simp only [List.drop_succ_cons, List.drop_zero, word]
          refine ⟨List.cons_ne_nil _ _, fun letter mem => ?_⟩
          rcases List.mem_cons.mp mem with rfl | mem
          · have alpha : isLabelStart letter = true → isWordChar letter = true := by
              simp only [isLabelStart, isWordChar, Char.isAlphanum, Bool.or_eq_true]
              exact fun known => known.imp_left Or.inl
            exact alpha start
          · exact List.all_eq_true.mp (List.all_takeWhile) letter mem
        · cases found
      · cases taken

theorem heredocTail_append {quote : List Char} (solid : ∀ letter ∈ quote, letter ∉ breaks)
    {text : List Char} {length : Nat} (taken : heredocTail quote text = some length) :
    length ≤ text.length ∧ ∀ tail, Breaks tail → heredocTail quote (text ++ tail) = some length := by
  simp only [heredocTail] at taken
  split at taken
  · cases taken
  rename_i start opening
  split at taken
  · cases taken
  rename_i size named
  obtain ⟨rest, closing, rfl⟩ := Option.map_eq_some_iff.mp taken
  have startBound := (mark_length opening).2
  have sizeBound := (solid_label.taken _ size named).1
  obtain ⟨long, word⟩ := label_word named
  generalize wordEq : (text.drop start).take size = label at *
  simp only [followedBy] at closing
  split at closing
  · rename_i again ending
    obtain ⟨behind, body, rfl⟩ := Option.map_eq_some_iff.mp closing
    split at body
    · rename_i feed line
      obtain ⟨inner, content, rfl⟩ := Option.map_eq_some_iff.mp body
      obtain ⟨contentBound, content'⟩ := heredocBody_append word long content
      have endingBound := (mark_length ending).2
      obtain ⟨lineBound, line'⟩ := closed_lineEnd _ _ line
      simp only [List.length_drop] at sizeBound endingBound lineBound contentBound
      refine ⟨by omega, fun tail breaking => ?_⟩
      have first : (text ++ tail).drop start = text.drop start ++ tail :=
        List.drop_append_of_le_length (by omega)
      have second : (text ++ tail).drop (start + size) = text.drop (start + size) ++ tail :=
        List.drop_append_of_le_length (by omega)
      have third : (text.drop (start + size) ++ tail).drop again =
          (text.drop (start + size)).drop again ++ tail :=
        List.drop_append_of_le_length (by rw [List.length_drop]; omega)
      have fourth : ((text.drop (start + size)).drop again ++ tail).drop feed =
          ((text.drop (start + size)).drop again).drop feed ++ tail :=
        List.drop_append_of_le_length (by rw [List.length_drop, List.length_drop]; omega)
      have sameWord : (text.drop start ++ tail).take size = label := by
        rw [List.take_append_of_le_length (by rw [List.length_drop]; omega), wordEq]
      simp only [heredocTail, mark_append solid _ breaking, opening, first,
        solid_label.settled _ tail breaking, named, second, sameWord, followedBy, ending, third,
        line' tail, fourth, content' tail breaking, Option.map_some]
    · cases body
  · cases closing

/-- The quote decides which of the tails can match. -/
theorem heredocTails_cons (first : Char) (rest : List Char) :
    heredocTails (first :: rest) =
      heredocTail (if first = '"' then ['"'] else if first = '\'' then ['\''] else [])
        (first :: rest) := by
  have quoted : ∀ quote : Char, first ≠ quote → heredocTail [quote] (first :: rest) = none := by
    intro quote apart
    simp [heredocTail, mark, apart]
  have bare : isLabelStart first = false → heredocTail [] (first :: rest) = none := by
    intro other
    simp [heredocTail, mark, label, followedBy, one, other]
  simp only [heredocTails, anyOf, List.findSome?_cons, List.findSome?_nil]
  by_cases double : first = '"'
  · subst double
    rw [quoted '\'' (by decide), bare (by decide), if_pos rfl]
    cases heredocTail ['"'] ('"' :: rest) <;> rfl
  · rw [quoted '"' double, if_neg double]
    by_cases single : first = '\''
    · subst single
      rw [bare (by decide), if_pos rfl]
      cases heredocTail ['\''] ('\'' :: rest) <;> rfl
    · rw [quoted '\'' single, if_neg single]
      cases heredocTail [] (first :: rest) <;> rfl

theorem heredocTails_append {text : List Char} {length : Nat}
    (taken : heredocTails text = some length) :
    length ≤ text.length ∧ ∀ tail, Breaks tail → heredocTails (text ++ tail) = some length := by
  cases text with
  | nil => cases taken
  | cons first rest =>
      rw [heredocTails_cons] at taken
      have solid : ∀ letter ∈ if first = '"' then ['"'] else if first = '\'' then ['\''] else [],
          letter ∉ breaks := by
        split
        · decide
        · split <;> decide
      obtain ⟨bound, further⟩ := heredocTail_append solid taken
      refine ⟨bound, fun tail breaking => ?_⟩
      rw [List.cons_append, heredocTails_cons, ← List.cons_append]
      exact further tail breaking

/-- The text starts with the mark of a heredoc. -/
def opensHeredoc (text : List Char) : Bool := (mark "<<<".toList text).isSome

theorem opensHeredoc_cases {text : List Char} (opened : opensHeredoc text = true) :
    ∃ rest, text = '<' :: '<' :: '<' :: rest := by
  obtain ⟨length, taken⟩ := Option.isSome_iff_exists.mp opened
  exact ⟨_, mark_eq_some taken⟩

/-- A heredoc whose mark stands behind a letter, or behind nothing. -/
theorem heredocWith_opening (lead rest : List Char)
    (front : binaryMark (lead ++ '<' :: '<' :: '<' :: rest) = some lead.length)
    (quote : List Char) :
    heredocWith quote (lead ++ '<' :: '<' :: '<' :: rest) =
      (heredocTail quote (rest.drop (rest.takeWhile isTabOrSpace).length)).map
        (lead.length + 3 + (rest.takeWhile isTabOrSpace).length + ·) := by
  generalize spaceEq : (rest.takeWhile isTabOrSpace).length = space
  have behind : ∀ more, (lead ++ '<' :: '<' :: '<' :: rest).drop (lead.length + 3 + space + more) =
      (rest.drop space).drop more := by
    intro more
    rw [show lead.length + 3 + space + more = lead.length + (space + more + 3) by omega,
      ← List.drop_drop, List.drop_left, List.drop_drop]
    rfl
  have opening : followedBy binaryMark
      (followedBy (mark "<<<".toList) (followedBy (run isTabOrSpace) (mark quote)))
      (lead ++ '<' :: '<' :: '<' :: rest) =
        (mark quote (rest.drop space)).map (lead.length + 3 + space + ·) := by
    simp [followedBy, front, mark, run, spaceEq, Function.comp_def, Nat.add_assoc]
  simp only [heredocWith, heredocTail, opening]
  cases mark quote (rest.drop space) with
  | none => rfl
  | some start =>
      simp only [Option.map_some, behind]
      cases label ((rest.drop space).drop start) with
      | none => rfl
      | some size =>
          simp only [Nat.add_assoc (lead.length + 3 + space), behind, Option.map_map,
            Function.comp_def]

theorem heredoc_opening (lead rest : List Char)
    (front : binaryMark (lead ++ '<' :: '<' :: '<' :: rest) = some lead.length) :
    heredoc (lead ++ '<' :: '<' :: '<' :: rest) =
      (heredocTails (rest.drop (rest.takeWhile isTabOrSpace).length)).map
        (lead.length + 3 + (rest.takeWhile isTabOrSpace).length + ·) := by
  simp only [heredoc, heredocTails, anyOf, List.findSome?_cons, List.findSome?_nil,
    heredocWith_opening lead rest front]
  generalize rest.drop (rest.takeWhile isTabOrSpace).length = body
  cases heredocTail ['"'] body <;> cases heredocTail ['\''] body <;>
    cases heredocTail [] body <;> rfl

/-- No label follows the mark of a heredoc that has one `<` more. -/
theorem heredoc_longMark (body : List Char) : heredoc ('<' :: '<' :: '<' :: '<' :: body) = none := by
  have unlabelled : heredocTails ('<' :: body) = none := by
    rw [heredocTails_cons]
    simp [heredocTail, mark, label, followedBy, one, show isLabelStart '<' = false by decide]
  have space : (('<' :: body).takeWhile isTabOrSpace).length = 0 := by
    simp [show isTabOrSpace '<' = false by decide]
  have tails := heredoc_opening [] ('<' :: body) rfl
  rw [space, List.drop_zero, unlabelled] at tails
  exact tails

theorem heredoc_of_not_opens {text : List Char} {size : Nat} (front : binaryMark text = some size)
    (shut : opensHeredoc (text.drop size) = false) : heredoc text = none := by
  have unmarked : mark "<<<".toList (text.drop size) = none := by
    simpa only [opensHeredoc, Option.isSome_eq_false_iff, Option.isNone_iff_eq_none] using shut
  have each : ∀ quote, heredocWith quote text = none := by
    intro quote
    simp only [heredocWith, followedBy, front, unmarked, Option.map_none]
  simp [heredoc, anyOf, each]

theorem binaryMark_letter {letter : Char} (known : letter = 'b' ∨ letter = 'B') (rest : List Char) :
    binaryMark (letter :: rest) = some 1 := by
  rcases known with rfl | rfl <;> rfl

theorem binaryMark_other {text : List Char}
    (front : startsWith (fun first => first == 'b' || first == 'B') text = false) :
    binaryMark text = some 0 := by
  cases text with
  | nil => rfl
  | cons first rest =>
      simp only [startsWith] at front
      simp [binaryMark, perhaps, one, front]

theorem lettered_heredoc : Lettered heredoc opensHeredoc opensHeredoc where
  empty := rfl
  opening := by
    intro text opened
    obtain ⟨rest, rfl⟩ := opensHeredoc_cases opened
    simp [piece, mark]
  other := fun text shut front => heredoc_of_not_opens (binaryMark_other front) shut
  letter := by
    intro letter rest known
    have front := binaryMark_letter known rest
    split
    · rename_i opened
      obtain ⟨more, rfl⟩ := opensHeredoc_cases opened
      have alone := heredoc_opening [] more rfl
      have behind := heredoc_opening [letter] more front
      rw [List.nil_append] at alone
      rw [List.singleton_append] at behind
      rw [alone, behind, Option.map_map]
      congr 1
      funext size
      simp only [Function.comp_apply, List.length_cons, List.length_nil]
      omega
    · rename_i shut
      exact heredoc_of_not_opens front (by simpa using shut)
  opens_of_doubled := fun _ doubled => doubled
  settled := by
    intro ahead tail breaking
    rw [opensHeredoc, mark_append (by decide) ahead breaking]
    rfl
  settledDoubled := by
    intro ahead tail breaking
    rw [opensHeredoc, mark_append (by decide) ahead breaking]
    rfl
  closed := by
    intro text length opened taken
    obtain ⟨rest, rfl⟩ := opensHeredoc_cases opened
    have here := heredoc_opening [] rest rfl
    rw [List.nil_append] at here
    rw [here] at taken
    obtain ⟨size, found, rfl⟩ := Option.map_eq_some_iff.mp taken
    obtain ⟨bound, further⟩ := heredocTails_append found
    have dark : ∃ character ∈ rest, isTabOrSpace character = false := by
      by_contra white
      have all : rest.takeWhile isTabOrSpace = rest := by
        rw [List.takeWhile_eq_self_iff]
        intro character mem
        by_contra dark
        exact white ⟨character, mem, by simpa using dark⟩
      rw [all, List.drop_length] at found
      cases found
    have space : (rest.takeWhile isTabOrSpace).length ≤ rest.length :=
      (List.takeWhile_prefix isTabOrSpace).length_le
    rw [List.length_drop] at bound
    simp only [List.length_nil, List.length_cons]
    refine ⟨by omega, by omega, fun tail breaking => ?_⟩
    have there := heredoc_opening [] (rest ++ tail) rfl
    rw [List.nil_append, takeWhile_append dark tail, List.drop_append_of_le_length space,
      further tail breaking] at there
    exact there

theorem kept_heredoc : heredoc.Kept := lettered_heredoc.kept

/-! Attributes -/

theorem closed_mark (expected : List Char) : (mark expected).Closed := by
  intro text length taken
  refine ⟨(mark_length taken).2, fun tail => ?_⟩
  induction expected generalizing text length with
  | nil =>
      rw [mark] at taken ⊢
      exact taken
  | cons first more ih =>
      cases text with
      | nil =>
          rw [mark] at taken
          cases taken
      | cons character rest =>
          rw [mark] at taken
          rw [List.cons_append, mark]
          split at taken
          · rename_i same
            obtain ⟨shorter, others, rfl⟩ := Option.map_eq_some_iff.mp taken
            rw [if_pos same, ih rest shorter others]
            rfl
          · cases taken

theorem Closed.followedBy {first second : Lexeme} (before : first.Closed) (behind : second.Closed) :
    (followedBy first second).Closed := by
  intro text length taken
  simp only [Lexeme.followedBy] at taken
  split at taken
  · rename_i size start
    obtain ⟨more, rest, rfl⟩ := Option.map_eq_some_iff.mp taken
    obtain ⟨front, further⟩ := before text size start
    obtain ⟨back, furtherBehind⟩ := behind _ more rest
    rw [List.length_drop] at back
    refine ⟨by omega, fun tail => ?_⟩
    simp only [Lexeme.followedBy, further tail, List.drop_append_of_le_length front,
      furtherBehind tail, Option.map_some]
  · cases taken

theorem closed_attributeRest (depth : Nat) : (attributeRest depth).Closed := by
  intro text
  induction text generalizing depth with
  | nil => intro length taken; cases taken
  | cons character rest ih =>
      have further : ∀ inner length, (attributeRest inner rest).map (· + 1) = some length →
          length ≤ rest.length + 1 ∧
            ∀ tail, (attributeRest inner (rest ++ tail)).map (· + 1) = some length := by
        intro inner length taken
        obtain ⟨shorter, others, rfl⟩ := Option.map_eq_some_iff.mp taken
        obtain ⟨bound, more⟩ := ih inner shorter others
        refine ⟨Nat.succ_le_succ bound, fun tail => ?_⟩
        rw [more tail]
        rfl
      intro length taken
      simp only [List.cons_append, attributeRest, List.length_cons] at taken ⊢
      by_cases opens : (character == '[') = true
      · simp only [opens, if_true] at taken ⊢
        by_cases shallow : depth < 3
        · simp only [shallow, if_true] at taken ⊢
          exact further _ length taken
        · simp only [shallow, if_false] at taken
          cases taken
      · simp only [opens, Bool.false_eq_true, if_false] at taken ⊢
        by_cases closes : (character == ']') = true
        · simp only [closes, if_true] at taken ⊢
          rcases depth with _ | _ | outer
          · cases taken
            exact ⟨Nat.succ_pos _, fun _ => rfl⟩
          · cases taken
            exact ⟨Nat.succ_pos _, fun _ => rfl⟩
          · exact further _ length taken
        · simp only [closes, Bool.false_eq_true, if_false] at taken ⊢
          exact further _ length taken

theorem closed_attributeGroup : attributeGroup.Closed :=
  .followedBy (closed_mark _) (closed_attributeRest 1)

theorem attributeGroup_of_not_opens {text : List Char} (shut : mark "#[".toList text = none) :
    attributeGroup text = none := by
  simp only [attributeGroup, followedBy, shut]

theorem attributeGroup_piece {text : List Char} (whole : code text = true) {length : Nat}
    (opened : mark "#[".toList text = some length) :
    ∃ size, attributeGroup text = some size ∧ code (text.drop size) = true := by
  obtain ⟨body, rfl⟩ : ∃ body, text = '#' :: '[' :: body := ⟨_, mark_eq_some opened⟩
  obtain ⟨more, first, -, behind⟩ := code_cons whole
  exact ⟨more + 1, by simpa [piece] using first, behind⟩

theorem kept_attributeGroup : attributeGroup.Kept where
  moves := by
    intro text length taken
    refine ⟨?_, (closed_attributeGroup text length taken).1⟩
    exact Positive.followedBy_left (.mark (by decide)) text length taken
  settled := by
    intro ahead tail whole breaking
    cases opened : mark "#[".toList ahead with
    | some length =>
        obtain ⟨size, found, -⟩ := attributeGroup_piece whole opened
        rw [found, (closed_attributeGroup ahead size found).2 tail]
    | none =>
        have shut : mark "#[".toList (ahead ++ tail) = none := by
          rw [mark_append (by decide) ahead breaking, opened]
        rw [attributeGroup_of_not_opens opened, attributeGroup_of_not_opens shut]
  whole := by
    intro ahead length whole taken
    cases opened : mark "#[".toList ahead with
    | some opening =>
        obtain ⟨size, found, behind⟩ := attributeGroup_piece whole opened
        rw [found] at taken
        cases taken
        exact behind
    | none =>
        rw [attributeGroup_of_not_opens opened] at taken
        cases taken

/-! Tags -/

theorem solid_tagWord : (perhaps (either (keyword "php") (one (· == '=')))).Solid := by
  have follows := settled_startsWith
    (show ∀ character ∈ breaks, continuesWord character = false by decide)
  exact .perhaps (.either (.before (.letters (by decide)) follows.not) (.one (by decide)))

theorem openingTag_append (ahead : List Char) {tail : List Char} (breaking : Breaks tail) :
    openingTag (ahead ++ tail) = openingTag ahead := by
  have opening := mark_append (show ∀ letter ∈ "<?".toList, letter ∉ breaks by decide) ahead breaking
  simp only [openingTag, followedBy, opening]
  cases found : mark "<?".toList ahead with
  | none => rfl
  | some length =>
      simp only [List.drop_append_of_le_length (mark_length found).2,
        solid_tagWord.settled _ tail breaking]

theorem openingTag_eq_some {text : List Char} {length : Nat}
    (taken : openingTag text = some length) :
    0 < length ∧ length ≤ text.length ∧ ∃ rest, text = '<' :: '?' :: rest := by
  simp only [openingTag, followedBy] at taken
  split at taken
  · rename_i size opening
    obtain ⟨more, word, rfl⟩ := Option.map_eq_some_iff.mp taken
    obtain ⟨rfl, bound⟩ := mark_length opening
    have wordBound := (solid_tagWord.taken _ more word).1
    rw [List.length_drop] at wordBound
    have two : "<?".toList.length = 2 := rfl
    exact ⟨by omega, by omega, _, mark_eq_some opening⟩
  · cases taken

theorem htmlLength_le (html : List Char) : htmlLength html ≤ html.length := by
  induction html with
  | nil => exact Nat.le_refl 0
  | cons character rest ih =>
      simp only [htmlLength, List.length_cons]
      split <;> omega

/-- Text outside the tags that ends at an opening tag does not see what follows. -/
theorem htmlLength_append {html rest : List Char}
    (opened : html.drop (htmlLength html) = '<' :: '?' :: rest) (tail : List Char) :
    htmlLength (html ++ tail) = htmlLength html := by
  induction html with
  | nil => cases opened
  | cons character others ih =>
      simp only [htmlLength, List.cons_append] at opened ⊢
      cases others with
      | nil => simp [htmlLength] at opened
      | cons second more =>
          simp only [List.cons_append, List.head?_cons] at opened ih ⊢
          by_cases tag : (character == '<' && some second == some '?') = true
          · simp only [tag, if_true]
          · simp only [tag, Bool.false_eq_true, if_false, List.drop_succ_cons] at opened ⊢
            rw [ih opened]

/-- Behind a closing tag in a text of whole pieces stands an opening tag. -/
theorem code_closing {body : List Char} (whole : code ('?' :: '>' :: body) = true) :
    ∃ length, openingTag (body.drop (htmlLength body)) = some length ∧
      code (body.drop (htmlLength body + length)) = true := by
  obtain ⟨more, first, -, behind⟩ := code_cons whole
  have tag : piece ('?' :: '>' :: body) =
      (openingTag (body.drop (htmlLength body))).map fun size => 2 + (htmlLength body + size) := by
    simp [piece, closingPiece, followedBy, mark, Function.comp_def]
  rw [tag] at first
  obtain ⟨length, found, size⟩ := Option.map_eq_some_iff.mp first
  refine ⟨length, found, ?_⟩
  obtain rfl : more = htmlLength body + length + 1 := by omega
  exact behind

end Lexeme

end PhpAudit
