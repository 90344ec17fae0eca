import PhpAudit.Proofs.LongPieces

/-!
The marks of operators on texts made up of whole pieces. An operator may be the start of a heredoc or
of a closing tag; no operand follows it there, and these places are set apart.
-/

namespace PhpAudit

namespace Lexeme

/-- A mark that is an operator unless one of some characters follows it. -/
def operatorMark (text excluded : List Char) : Lexeme :=
  before (mark text) fun rest => !startsWith (fun character => excluded.contains character) rest

/-- The text starts with characters that read as an operator in front of no operand: with the mark of
a heredoc, or with the mark `??` in front of the rest of a closing tag. -/
def stuck (text : List Char) : Bool :=
  (opensHeredoc text && !(mark "<<<<".toList text).isSome) || (mark "??>".toList text).isSome

/-- The rule where the text does not start with such characters. -/
def unstuck (rule : Lexeme) : Lexeme := fun text => if stuck text then none else rule text

theorem Kept.before {rule : Lexeme} {accepts : List Char → Bool} (kept : rule.Kept)
    (settled : Settled accepts) : (before rule accepts).Kept where
  moves := fun text length taken => kept.moves text length (before_eq_some.mp taken).1
  settled := by
    intro ahead tail whole breaking
    simp only [Lexeme.before, kept.settled ahead tail whole breaking]
    cases found : rule ahead with
    | none => rfl
    | some length =>
        have bound := (kept.moves ahead length found).2
        simp only [List.drop_append_of_le_length bound, settled _ tail breaking]
  whole := fun ahead length whole taken => kept.whole ahead length whole (before_eq_some.mp taken).1

theorem stuck_append (ahead : List Char) {tail : List Char} (breaking : Breaks tail) :
    stuck (ahead ++ tail) = stuck ahead := by
  have coalesce := mark_append (show ∀ letter ∈ "??>".toList, letter ∉ breaks by decide) ahead
    breaking
  have heredoc := mark_append (show ∀ letter ∈ "<<<".toList, letter ∉ breaks by decide) ahead
    breaking
  have further := mark_append (show ∀ letter ∈ "<<<<".toList, letter ∉ breaks by decide) ahead
    breaking
  simp only [stuck, opensHeredoc, coalesce, heredoc, further]

theorem kept_unstuck {rule : Lexeme}
    (moves : ∀ text length, rule text = some length → 0 < length ∧ length ≤ text.length)
    (settled : ∀ ahead tail, code ahead = true → Breaks tail → rule (ahead ++ tail) = rule ahead)
    (whole : ∀ ahead length, code ahead = true → stuck ahead = false → rule ahead = some length →
      code (ahead.drop length) = true) : (unstuck rule).Kept := by
  have free : ∀ text length, unstuck rule text = some length →
      stuck text = false ∧ rule text = some length := by
    intro text length taken
    simp only [unstuck] at taken
    split at taken
    · cases taken
    · exact ⟨by simpa using ‹¬stuck text = true›, taken⟩
  constructor
  · exact fun text length taken => moves text length (free text length taken).2
  · intro ahead tail full breaking
    simp only [unstuck, stuck_append ahead breaking, settled ahead tail full breaking]
  · intro ahead length full taken
    obtain ⟨loose, found⟩ := free ahead length taken
    exact whole ahead length full loose found

section Operators

variable {text excluded : List Char}

theorem operatorMark_moves (long : 0 < text.length) (ahead : List Char) (length : Nat)
    (taken : operatorMark text excluded ahead = some length) :
    0 < length ∧ length ≤ ahead.length := by
  obtain ⟨rfl, bound⟩ := mark_length (before_eq_some.mp taken).1
  exact ⟨long, bound⟩

theorem operatorMark_append (solid : ∀ letter ∈ text ++ excluded, letter ∉ breaks)
    (ahead tail : List Char) (breaking : Breaks tail) :
    operatorMark text excluded (ahead ++ tail) = operatorMark text excluded ahead := by
  have follows : Settled (startsWith fun character => excluded.contains character) := by
    refine settled_startsWith fun character mem => ?_
    simp only [List.contains_eq_mem, decide_eq_false_iff_not]
    exact fun known => solid character (List.mem_append_right text known) mem
  simp only [operatorMark, before,
    mark_append (fun letter mem => solid letter (List.mem_append_left excluded mem)) ahead breaking]
  cases found : mark text ahead with
  | none => rfl
  | some length =>
      simp only [List.drop_append_of_le_length (mark_length found).2, follows _ tail breaking]

/-- What stands behind an operator in a text that starts with it. -/
theorem operatorMark_eq_some {ahead : List Char} {length : Nat}
    (taken : operatorMark text excluded ahead = some length) :
    ahead = text ++ ahead.drop length ∧
      ∀ character rest, ahead.drop length = character :: rest → character ∉ excluded := by
  obtain ⟨found, free⟩ := before_eq_some.mp taken
  refine ⟨mark_eq_some found, fun character rest behind known => ?_⟩
  rw [behind] at free
  simp [startsWith, known] at free

end Operators

theorem kept_coalesce : (unstuck (operatorMark ['?', '?'] ['='])).Kept := by
  refine kept_unstuck (operatorMark_moves (by decide))
    (fun ahead tail _ => operatorMark_append (by decide) ahead tail) ?_
  intro ahead length whole loose taken
  obtain ⟨front, -⟩ := operatorMark_eq_some taken
  generalize ahead.drop length = rest at *
  subst front
  have apart : rest.head? ≠ some '>' := by
    intro closing
    obtain ⟨others, rfl⟩ := List.head?_eq_some_iff.mp closing
    simp [stuck, mark] at loose
  have first : code ('?' :: rest) = true := code_single whole (by simp [piece])
  exact code_single first (by simp [piece, apart])

theorem kept_shiftLeft : (unstuck (operatorMark ['<', '<'] ['=', '<'])).Kept := by
  refine kept_unstuck (operatorMark_moves (by decide))
    (fun ahead tail _ => operatorMark_append (by decide) ahead tail) ?_
  intro ahead length whole loose taken
  obtain ⟨front, free⟩ := operatorMark_eq_some taken
  generalize ahead.drop length = rest at *
  subst front
  cases rest with
  | nil => rfl
  | cons character others =>
      have apart : character ≠ '<' := by
        rintro rfl
        exact free '<' others rfl (by decide)
      have first : code ('<' :: character :: others) = true :=
        code_single whole (by simp [piece, mark, apart])
      exact code_single first (by simp [piece, mark, apart])

theorem kept_less : (unstuck (operatorMark ['<'] [])).Kept := by
  refine kept_unstuck (operatorMark_moves (by decide))
    (fun ahead tail _ => operatorMark_append (by decide) ahead tail) ?_
  intro ahead length whole loose taken
  obtain ⟨front, -⟩ := operatorMark_eq_some taken
  generalize ahead.drop length = rest at *
  subst front
  have shut : mark ['<', '<'] rest = none := by
    rw [Option.eq_none_iff_forall_not_mem]
    intro length opened
    have marked := mark_eq_some opened
    generalize rest.drop length = others at marked
    subst marked
    -- the text is free to go on with an operator only if there is one `<` more
    have more : mark ['<'] others ≠ none := by
      intro none'
      simp [stuck, opensHeredoc, mark, none'] at loose
    obtain ⟨size, found⟩ := Option.ne_none_iff_exists'.mp more
    have marked := mark_eq_some found
    generalize others.drop size = body at marked
    subst marked
    obtain ⟨more, first, -⟩ := code_cons whole
    have heredocs : piece ('<' :: '<' :: '<' :: '<' :: body) = none := by
      rw [← heredoc_longMark body]
      simp [piece, mark]
    simp [heredocs] at first
  exact code_single whole (by simp [piece, shut])

theorem kept_divide : (unstuck (operatorMark ['/'] ['/', '=', '*'])).Kept := by
  refine kept_unstuck (operatorMark_moves (by decide)) ?_ ?_
  · intro ahead tail whole breaking
    cases ahead with
    | nil =>
        obtain ⟨first, rest, rfl, mem, comment⟩ := breaking
        by_cases slash : first = '/'
        · obtain ⟨body, rfl⟩ := List.head?_eq_some_iff.mp (comment slash)
          subst slash
          simp [operatorMark, before, mark, startsWith]
        · simp [operatorMark, before, mark, slash]
    | cons character rest =>
        cases rest with
        | nil =>
            by_cases slash : character = '/'
            · subst slash
              cases whole
            · simp [operatorMark, before, mark, slash]
        | cons second others =>
            by_cases slash : character = '/' <;>
              simp [operatorMark, before, mark, startsWith, slash]
  · intro ahead length whole loose taken
    obtain ⟨front, free⟩ := operatorMark_eq_some taken
    generalize ahead.drop length = rest at *
    subst front
    cases rest with
    | nil => rfl
    | cons second others =>
        have apart := free second others rfl
        simp only [List.mem_cons, List.not_mem_nil, or_false, not_or] at apart
        exact code_single whole (by simp [piece, apart])

/-- A question mark that starts no closing tag. -/
theorem kept_loneQuestion : (operatorMark ['?'] ['>']).Kept where
  moves := operatorMark_moves (by decide)
  settled := fun ahead tail _ => operatorMark_append (by decide) ahead tail
  whole := by
    intro ahead length whole taken
    obtain ⟨front, free⟩ := operatorMark_eq_some taken
    generalize ahead.drop length = rest at *
    subst front
    have apart : rest.head? ≠ some '>' := by
      intro closing
      obtain ⟨others, rfl⟩ := List.head?_eq_some_iff.mp closing
      exact free '>' others rfl List.mem_cons_self
    exact code_single whole (by simp [piece, apart])

theorem kept_operator {entry : String × String × BinaryOperator}
    (known : entry ∈ Reader.binaryMarks) :
    (unstuck (operatorMark entry.1.toList entry.2.1.toList)).Kept := by
  -- All marks but four are pieces of one character each, whatever follows them.
  have kinds : ∀ entry ∈ Reader.binaryMarks,
      (closeMark entry.1.toList = true ∧
        ∀ character ∈ breaks, entry.2.1.toList.contains character = false) ∨
      (entry.1, entry.2.1) ∈ [("??", "="), ("<<", "=<"), ("<", ""), ("/", "/=*")] := by decide
  rcases kinds entry known with ⟨compact, apart⟩ | special
  · have kept := (kept_closeMark compact).before (settled_startsWith apart).not
    exact kept_unstuck kept.moves kept.settled fun ahead length whole _ => kept.whole ahead length whole
  · simp only [List.mem_cons, List.not_mem_nil, or_false, Prod.mk.injEq] at special
    rcases special with ⟨text, excluded⟩ | ⟨text, excluded⟩ | ⟨text, excluded⟩ | ⟨text, excluded⟩ <;>
      rw [text, excluded]
    · exact kept_coalesce
    · exact kept_shiftLeft
    · exact kept_less
    · exact kept_divide

end Lexeme

end PhpAudit
