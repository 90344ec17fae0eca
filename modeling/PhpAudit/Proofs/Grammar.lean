import PhpAudit.Proofs.LoopHeaders

/-!
Grammars whose rules try their alternatives in order. A form answers for a text with the number of
characters it takes or that it fails; nothing bounds how deep the rules call each other or how often
an item is repeated, so a rule that comes back to itself without taking a character has no answer. If
the rules can be ranked such that each enters only rules below it before it takes a character, and no
repeated item can be empty, then every rule has exactly one answer for every text.
-/

namespace PhpAudit

/-- A lexeme that takes at least one character and no more than there are. -/
structure Token where
  rule : Lexeme
  solid : ∀ {text : List Char} {length : Nat}, rule text = some length →
    0 < length ∧ length ≤ text.length

inductive Form (Symbol : Type) where
  | empty
  | trivia
  | token (token : Token)
  | symbol (symbol : Symbol)
  | row (first second : Form Symbol)
  | choice (first second : Form Symbol)
  | star (item : Form Symbol)
  | ahead (form : Form Symbol)
  | absent (form : Form Symbol)

abbrev Grammar (Symbol : Type) := Symbol → Form Symbol

namespace Form

variable {Symbol : Type}

def optional (form : Form Symbol) : Form Symbol := .choice form .empty

/-- One or more repetitions. -/
def plus (item : Form Symbol) : Form Symbol := .row item (.star item)

/-- All of the forms, one after the other. -/
def rows : List (Form Symbol) → Form Symbol
  | [] => .empty
  | [form] => form
  | form :: more => .row form (rows more)

/-- The first of the forms that does not fail. -/
def choices : List (Form Symbol) → Form Symbol
  | [] => .absent .empty
  | [form] => form
  | form :: more => .choice form (choices more)

section Answers

variable (rules : Grammar Symbol)

/-- What a form answers for a text: how many characters it takes, or that it fails. -/
inductive Answers : Form Symbol → List Char → Option Nat → Prop
  | empty {text} : Answers .empty text (some 0)
  | trivia {text} : Answers .trivia text (some (Lexeme.trivia text))
  | token {token text answer} (taken : token.rule text = answer) : Answers (.token token) text answer
  | symbol {symbol text answer} (body : Answers (rules symbol) text answer) :
      Answers (.symbol symbol) text answer
  | row {first second text length more} (front : Answers first text (some length))
      (back : Answers second (text.drop length) (some more)) :
      Answers (.row first second) text (some (length + more))
  | rowFront {first second text} (front : Answers first text none) :
      Answers (.row first second) text none
  | rowBack {first second text length} (front : Answers first text (some length))
      (back : Answers second (text.drop length) none) : Answers (.row first second) text none
  | choice {first second text length} (taken : Answers first text (some length)) :
      Answers (.choice first second) text (some length)
  | choiceOther {first second text answer} (fails : Answers first text none)
      (other : Answers second text answer) : Answers (.choice first second) text answer
  | star {item text length more} (first : Answers item text (some length))
      (others : Answers (.star item) (text.drop length) (some more)) :
      Answers (.star item) text (some (length + more))
  | starEnd {item text} (fails : Answers item text none) : Answers (.star item) text (some 0)
  | ahead {form text length} (found : Answers form text (some length)) :
      Answers (.ahead form) text (some 0)
  | aheadFails {form text} (fails : Answers form text none) : Answers (.ahead form) text none
  | absent {form text} (fails : Answers form text none) : Answers (.absent form) text (some 0)
  | absentFails {form text length} (found : Answers form text (some length)) :
      Answers (.absent form) text none

/-- To answer for the text, the form asks a symbol for a part of it. -/
inductive Enters : Form Symbol → List Char → Symbol → List Char → Prop
  | symbol {symbol text} : Enters (.symbol symbol) text symbol text
  | row {first second text symbol part} (front : Enters first text symbol part) :
      Enters (.row first second) text symbol part
  | rowBack {first second text symbol part length} (front : Answers rules first text (some length))
      (back : Enters second (text.drop length) symbol part) :
      Enters (.row first second) text symbol part
  | choice {first second text symbol part} (tried : Enters first text symbol part) :
      Enters (.choice first second) text symbol part
  | choiceOther {first second text symbol part} (fails : Answers rules first text none)
      (other : Enters second text symbol part) : Enters (.choice first second) text symbol part
  | star {item text symbol part} (tried : Enters item text symbol part) :
      Enters (.star item) text symbol part
  | starAgain {item text symbol part length} (first : Answers rules item text (some length))
      (others : Enters (.star item) (text.drop length) symbol part) :
      Enters (.star item) text symbol part
  | ahead {form text symbol part} (tried : Enters form text symbol part) :
      Enters (.ahead form) text symbol part
  | absent {form text symbol part} (tried : Enters form text symbol part) :
      Enters (.absent form) text symbol part

/-- A repetition of the item ends after a number of rounds. -/
inductive Rounds (item : Form Symbol) : List Char → Nat → Prop
  | done {text} (fails : Answers rules item text none) : Rounds item text 0
  | again {text length count} (first : Answers rules item text (some length))
      (others : Rounds item (text.drop length) count) : Rounds item text (count + 1)

end Answers

variable {rules : Grammar Symbol} {form : Form Symbol} {text : List Char}

theorem Answers.unique {first second : Option Nat} (one : Answers rules form text first)
    (other : Answers rules form text second) : first = second := by
  induction one generalizing second with
  | empty => cases other; rfl
  | trivia => cases other; rfl
  | token taken =>
      cases other with
      | token again => rw [← taken, again]
  | symbol body ih =>
      cases other with
      | symbol again => exact ih again
  | row front back frontIh backIh =>
      cases other with
      | row again later =>
          cases frontIh again
          cases backIh later
          rfl
      | rowFront again => cases frontIh again
      | rowBack again later =>
          cases frontIh again
          cases backIh later
  | rowFront front frontIh =>
      cases other with
      | row again later => cases frontIh again
      | rowFront again => rfl
      | rowBack again later => rfl
  | rowBack front back frontIh backIh =>
      cases other with
      | row again later =>
          cases frontIh again
          cases backIh later
      | rowFront again => rfl
      | rowBack again later => rfl
  | choice taken ih =>
      cases other with
      | choice again => exact ih again
      | choiceOther fails again => cases ih fails
  | choiceOther fails rest failsIh restIh =>
      cases other with
      | choice again => cases failsIh again
      | choiceOther again later => exact restIh later
  | star front others frontIh othersIh =>
      cases other with
      | star again later =>
          cases frontIh again
          cases othersIh later
          rfl
      | starEnd again => cases frontIh again
  | starEnd fails ih =>
      cases other with
      | star again later => cases ih again
      | starEnd again => rfl
  | ahead found ih =>
      cases other with
      | ahead again => rfl
      | aheadFails again => cases ih again
  | aheadFails fails ih =>
      cases other with
      | ahead again => cases ih again
      | aheadFails again => rfl
  | absent fails ih =>
      cases other with
      | absent again => rfl
      | absentFails again => cases ih again
  | absentFails found ih =>
      cases other with
      | absent again => cases ih again
      | absentFails again => rfl

theorem Answers.length_le {length : Nat} (taken : Answers rules form text (some length)) :
    length ≤ text.length := by
  generalize same : some length = answer at taken
  induction taken generalizing length with
  | trivia =>
      cases same
      exact Lexeme.triviaFrom_le 0 _
  | @token token _ _ taken =>
      subst same
      exact (token.solid taken).2
  | symbol body ih => exact ih same
  | row front back frontIh backIh =>
      cases same
      have := frontIh rfl
      have := backIh rfl
      rw [List.length_drop] at this
      omega
  | choice taken ih => exact ih same
  | choiceOther fails other failsIh otherIh => exact otherIh same
  | star front others frontIh othersIh =>
      cases same
      have := frontIh rfl
      have := othersIh rfl
      rw [List.length_drop] at this
      omega
  | empty | starEnd | ahead | absent =>
      cases same
      exact Nat.zero_le _
  | rowFront | rowBack | aheadFails | absentFails => cases same

theorem not_answers_optional : ¬ Answers rules (.optional form) text none := by
  intro fails
  cases fails with
  | choiceOther fails rest => cases rest

theorem Enters.suffix {symbol : Symbol} {part : List Char} (enters : Enters rules form text symbol part) :
    part <:+ text := by
  induction enters with
  | symbol => exact List.suffix_refl _
  | row _ ih | choice _ ih | choiceOther _ _ ih | star _ ih | ahead _ ih | absent _ ih => exact ih
  | rowBack _ _ ih | starAgain _ _ ih => exact ih.trans (List.drop_suffix _ _)

theorem Answers.append {first second : Form Symbol} {length : Nat} {answer : Option Nat}
    (front : Answers rules first text (some length))
    (back : Answers rules second (text.drop length) answer) :
    Answers rules (.row first second) text (answer.map (length + ·)) := by
  cases answer with
  | none => exact .rowBack front back
  | some more => exact .row front back

/-- What may stand in front does not stand there. -/
theorem Answers.without {first second : Form Symbol} {answer : Option Nat}
    (refused : Answers rules first text none) (taken : Answers rules second text answer) :
    Answers rules (.row (.optional first) second) text answer := by
  cases answer with
  | none => exact .rowBack (.choiceOther refused .empty) taken
  | some length =>
      rw [← Nat.zero_add length]
      exact .row (.choiceOther refused .empty) taken

theorem Answers.star_of_plus {length : Nat} (taken : Answers rules (.plus form) text (some length)) :
    Answers rules (.star form) text (some length) := by
  cases taken with
  | row first others => exact .star first others

/-- One more item in front of a repetition that something follows. -/
theorem Answers.star_row {item : Form Symbol} {length : Nat} {answer : Option Nat}
    (first : Answers rules item text (some length))
    (others : Answers rules (.row (.star item) form) (text.drop length) answer) :
    Answers rules (.row (.star item) form) text (answer.map (length + ·)) := by
  cases others with
  | row more back =>
      rw [List.drop_drop] at back
      rw [Option.map_some, ← Nat.add_assoc]
      exact .row (.star first more) back
  | rowFront fails => cases fails
  | rowBack more back =>
      rw [List.drop_drop] at back
      exact .rowBack (.star first more) back

/-! Forms that answer alike -/

/-- What one form answers, the other one answers too. -/
def Alike (rules : Grammar Symbol) (form other : Form Symbol) : Prop :=
  ∀ ⦃text answer⦄, Answers rules form text answer → Answers rules other text answer

namespace Alike

variable {first second third other last : Form Symbol}

theorem refl : Alike rules form form := fun _ _ answers => answers

theorem trans (before : Alike rules first second) (behind : Alike rules second third) :
    Alike rules first third :=
  fun _ _ answers => behind (before answers)

theorem symbol {symbol : Symbol} (body : rules symbol = form) :
    Alike rules form (.symbol symbol) :=
  fun _ _ answers => .symbol (body ▸ answers)

theorem row (front : Alike rules first other) (back : Alike rules second last) :
    Alike rules (.row first second) (.row other last) := by
  intro text answer answers
  cases answers with
  | row taken more => exact .row (front taken) (back more)
  | rowFront fails => exact .rowFront (front fails)
  | rowBack taken fails => exact .rowBack (front taken) (back fails)

theorem choice (one : Alike rules first other) (two : Alike rules second last) :
    Alike rules (.choice first second) (.choice other last) := by
  intro text answer answers
  cases answers with
  | choice taken => exact .choice (one taken)
  | choiceOther fails rest => exact .choiceOther (one fails) (two rest)

theorem row_empty : Alike rules (.row form .empty) form := by
  intro text answer answers
  cases answers with
  | row front back =>
      cases back
      exact front
  | rowFront front => exact front
  | rowBack front back => cases back

theorem row_left : Alike rules (.row first (.row second third)) (.row (.row first second) third) := by
  intro text answer answers
  cases answers with
  | row front back =>
      cases back with
      | row middle back =>
          rw [List.drop_drop] at back
          rw [← Nat.add_assoc]
          exact .row (.row front middle) back
  | rowFront front => exact .rowFront (.rowFront front)
  | rowBack front back =>
      cases back with
      | rowFront middle => exact .rowFront (.rowBack front middle)
      | rowBack middle back =>
          rw [List.drop_drop] at back
          exact .rowBack (.row front middle) back

theorem row_right : Alike rules (.row (.row first second) third) (.row first (.row second third)) := by
  intro text answer answers
  cases answers with
  | row front back =>
      cases front with
      | row front middle =>
          rw [← List.drop_drop] at back
          rw [Nat.add_assoc]
          exact .row front (.row middle back)
  | rowFront front =>
      cases front with
      | rowFront front => exact .rowFront front
      | rowBack front middle => exact .rowBack front (.rowFront middle)
  | rowBack front back =>
      cases front with
      | row front middle =>
          rw [← List.drop_drop] at back
          exact .rowBack front (.rowBack middle back)

theorem choice_left :
    Alike rules (.choice first (.choice second third)) (.choice (.choice first second) third) := by
  intro text answer answers
  cases answers with
  | choice taken => exact .choice (.choice taken)
  | choiceOther fails rest =>
      cases rest with
      | choice taken => exact .choice (.choiceOther fails taken)
      | choiceOther failsToo rest => exact .choiceOther (.choiceOther fails failsToo) rest

theorem choice_right :
    Alike rules (.choice (.choice first second) third) (.choice first (.choice second third)) := by
  intro text answer answers
  cases answers with
  | choice taken =>
      cases taken with
      | choice taken => exact .choice taken
      | choiceOther fails taken => exact .choiceOther fails (.choice taken)
  | choiceOther fails rest =>
      cases fails with
      | choiceOther fails failsToo => exact .choiceOther fails (.choiceOther failsToo rest)

/-- An alternative that always fails is none. -/
theorem choice_fails : Alike rules (.choice form (choices [])) form := by
  intro text answer answers
  cases answers with
  | choice taken => exact taken
  | choiceOther fails rest =>
      cases rest with
      | absent failsToo => cases failsToo
      | absentFails => exact fails

/-- A common beginning of two alternatives is taken once. -/
theorem factor :
    Alike rules (.row first (.choice second third)) (.choice (.row first second) (.row first third)) := by
  intro text answer answers
  cases answers with
  | row front back =>
      cases back with
      | choice taken => exact .choice (.row front taken)
      | choiceOther fails rest => exact .choiceOther (.rowBack front fails) (.row front rest)
  | rowFront front => exact .choiceOther (.rowFront front) (.rowFront front)
  | rowBack front back =>
      cases back with
      | choiceOther fails rest => exact .choiceOther (.rowBack front fails) (.rowBack front rest)

theorem factor_optional :
    Alike rules (.row first (.optional second)) (.choice (.row first second) first) :=
  factor.trans (choice refl row_empty)

/-- A common end of two alternatives is taken once, if the second one fails where the end does not
follow the first one. -/
theorem factor_end
    (apart : ∀ {text length}, Answers rules first text (some length) →
      Answers rules third (text.drop length) none → Answers rules second text none) :
    Alike rules (.choice (.row first third) (.row second third)) (.row (.choice first second) third) := by
  intro text answer answers
  cases answers with
  | choice taken =>
      cases taken with
      | row front back => exact .row (.choice front) back
  | choiceOther fails rest =>
      cases fails with
      | rowFront front =>
          cases rest with
          | row taken back => exact .row (.choiceOther front taken) back
          | rowFront failsToo => exact .rowFront (.choiceOther front failsToo)
          | rowBack taken back => exact .rowBack (.choiceOther front taken) back
      | rowBack front back =>
          have failsToo := apart front back
          cases rest with
          | row taken _ => cases failsToo.unique taken
          | rowFront _ => exact .rowBack (.choice front) back
          | rowBack taken _ => cases failsToo.unique taken

/-- Something that may stand in front, if it is not there where the form takes the text. -/
theorem optional_front
    (apart : ∀ {text length}, Answers rules second text (some length) → Answers rules first text none) :
    Alike rules (.choice second (.row first second)) (.row (.optional first) second) := by
  intro text answer answers
  cases answers with
  | choice taken => exact .without (apart taken) taken
  | choiceOther fails rest =>
      cases rest with
      | row front back => exact .row (.choice front) back
      | rowFront front => exact .without front fails
      | rowBack front back => exact .rowBack (.choice front) back

/-- Two optional forms in a row. -/
theorem optional_row :
    Alike rules (.optional (.choice (.row first (.optional second)) second))
      (.row (.optional first) (.optional second)) := by
  have fails_front : ∀ {text}, Answers rules (.row first (.optional second)) text none →
      Answers rules first text none := by
    intro text fails
    cases fails with
    | rowFront front => exact front
    | rowBack front back => exact absurd back not_answers_optional
  intro text answer answers
  cases answers with
  | choice taken =>
      cases taken with
      | choice taken =>
          cases taken with
          | row front back => exact .row (.choice front) back
      | choiceOther fails rest => exact .without (fails_front fails) (.choice rest)
  | choiceOther fails rest =>
      cases rest
      cases fails with
      | choiceOther fails failsToo =>
          exact .without (fails_front fails) (.choiceOther failsToo .empty)

theorem star_choice : Alike rules (.star form) (.optional (.plus form)) := by
  intro text answer answers
  cases answers with
  | star first others => exact .choice (.row first others)
  | starEnd fails => exact .choiceOther (.rowFront fails) .empty

end Alike

/-! Forms that may be empty -/

/-- Whether the form may answer without taking a character, by what is known of the symbols. -/
def mayBeEmpty (known : Symbol → Bool) : Form Symbol → Bool
  | empty => true
  | trivia => true
  | token _ => false
  | symbol name => known name
  | row first second => first.mayBeEmpty known && second.mayBeEmpty known
  | choice first second => first.mayBeEmpty known || second.mayBeEmpty known
  | star _ => true
  | ahead _ => true
  | absent _ => true

/-- The symbols that the form may enter before it takes a character. -/
def entered (known : Symbol → Bool) : Form Symbol → List Symbol
  | empty => []
  | trivia => []
  | token _ => []
  | symbol name => [name]
  | row first second =>
      first.entered known ++ if first.mayBeEmpty known then second.entered known else []
  | choice first second => first.entered known ++ second.entered known
  | star item => item.entered known
  | ahead form => form.entered known
  | absent form => form.entered known

/-- The items that are repeated somewhere in the form. -/
def repeated : Form Symbol → List (Form Symbol)
  | empty => []
  | trivia => []
  | token _ => []
  | symbol _ => []
  | row first second => first.repeated ++ second.repeated
  | choice first second => first.repeated ++ second.repeated
  | star item => item :: item.repeated
  | ahead form => form.repeated
  | absent form => form.repeated

end Form

namespace Grammar

open Form

variable {Symbol : Type}

/-- What is known of the symbols is right, every symbol enters only those of lower rank before it takes
a character, and no item that is repeated may be empty. -/
structure Ordered (rules : Grammar Symbol) (known : Symbol → Bool) (rank : Symbol → Nat) : Prop where
  sound : ∀ symbol, (rules symbol).mayBeEmpty known = true → known symbol = true
  entered : ∀ symbol, ∀ other ∈ (rules symbol).entered known, rank other < rank symbol
  repeated : ∀ symbol, ∀ item ∈ (rules symbol).repeated, item.mayBeEmpty known = false

variable {rules : Grammar Symbol} {known : Symbol → Bool} {rank : Symbol → Nat}
  {form : Form Symbol} {text : List Char}

/-- A symbol comes to another one by so many calls. -/
inductive Calls (rules : Grammar Symbol) : Nat → Symbol → List Char → Symbol → List Char → Prop
  | here {symbol text} : Calls rules 0 symbol text symbol text
  | next {count symbol text middle part last rest} (calls : Enters rules (rules symbol) text middle part)
      (onward : Calls rules count middle part last rest) : Calls rules (count + 1) symbol text last rest

/-- A symbol is entered inside itself, so many times over. -/
inductive Reenters (rules : Grammar Symbol) : Nat → Symbol → List Char → Prop
  | none {symbol text} : Reenters rules 0 symbol text
  | again {depth count symbol text part} (calls : Calls rules (count + 1) symbol text symbol part)
      (inside : Reenters rules depth symbol part) : Reenters rules (depth + 1) symbol text

theorem Calls.suffix {count : Nat} {symbol last : Symbol} {part : List Char}
    (calls : Calls rules count symbol text last part) : part <:+ text := by
  induction calls with
  | here => exact List.suffix_refl _
  | next first _ ih => exact ih.trans first.suffix

theorem Ordered.mayBeEmpty_of_answers (ordered : Ordered rules known rank)
    (taken : Answers rules form text (some 0)) : form.mayBeEmpty known = true := by
  generalize same : some 0 = answer at taken
  induction taken with
  | empty | trivia | star | starEnd | ahead | absent => rfl
  | @token token _ _ taken =>
      subst same
      exact absurd (token.solid taken).1 (Nat.lt_irrefl 0)
  | symbol body ih => exact ordered.sound _ (ih same)
  | row front back frontIh backIh =>
      injection same with sum
      obtain ⟨none, nothing⟩ := Nat.add_eq_zero_iff.mp sum.symm
      rw [mayBeEmpty, frontIh (congrArg some none.symm), backIh (congrArg some nothing.symm)]
      rfl
  | choice taken ih => rw [mayBeEmpty, ih same, Bool.true_or]
  | choiceOther fails other failsIh otherIh => rw [mayBeEmpty, otherIh same, Bool.or_true]
  | rowFront | rowBack | aheadFails | absentFails => cases same

theorem Ordered.positive (ordered : Ordered rules known rank) (solid : form.mayBeEmpty known = false)
    {length : Nat} (taken : Answers rules form text (some length)) : 0 < length := by
  apply Nat.pos_of_ne_zero
  rintro rfl
  rw [ordered.mayBeEmpty_of_answers taken] at solid
  cases solid

/-- A symbol is entered with less text, or as one of those that come first. -/
theorem Ordered.enters_cases (ordered : Ordered rules known rank) {symbol : Symbol} {part : List Char}
    (enters : Enters rules form text symbol part) :
    part.length < text.length ∨ part = text ∧ symbol ∈ form.entered known := by
  have shorter : ∀ {length : Nat} {text part : List Char}, 0 < length → length ≤ text.length →
      (part.length < (text.drop length).length ∨ part = text.drop length) →
        part.length < text.length := by
    rintro length text part positive bound (less | rfl)
    all_goals
      simp only [List.length_drop] at *
      omega
  induction enters with
  | symbol => exact .inr ⟨rfl, List.mem_singleton.mpr rfl⟩
  | row front ih => exact ih.imp id fun same => ⟨same.1, List.mem_append_left _ same.2⟩
  | @rowBack first second text symbol part length front back ih =>
      by_cases taken : length = 0
      · subst taken
        rw [List.drop_zero] at ih
        refine ih.imp id fun same => ⟨same.1, List.mem_append_right _ ?_⟩
        rw [if_pos (ordered.mayBeEmpty_of_answers front)]
        exact same.2
      · exact .inl (shorter (Nat.pos_of_ne_zero taken) front.length_le (ih.imp id And.left))
  | choice tried ih => exact ih.imp id fun same => ⟨same.1, List.mem_append_left _ same.2⟩
  | choiceOther fails other ih => exact ih.imp id fun same => ⟨same.1, List.mem_append_right _ same.2⟩
  | star tried ih => exact ih
  | @starAgain item text symbol part length first others ih =>
      by_cases taken : length = 0
      · subst taken
        rwa [List.drop_zero] at ih
      · exact .inl (shorter (Nat.pos_of_ne_zero taken) first.length_le (ih.imp id And.left))
  | ahead tried ih => exact ih
  | absent tried ih => exact ih

/-- A call leaves less text, or the same text to a symbol of lower rank. -/
theorem Ordered.step (ordered : Ordered rules known rank) {symbol other : Symbol} {part : List Char}
    (calls : Enters rules (rules symbol) text other part) :
    part.length < text.length ∨ part = text ∧ rank other < rank symbol :=
  (ordered.enters_cases calls).imp id fun same => ⟨same.1, ordered.entered symbol other same.2⟩

theorem Ordered.run (ordered : Ordered rules known rank) {count : Nat} {symbol other : Symbol}
    {part : List Char} (calls : Calls rules (count + 1) symbol text other part) :
    part.length < text.length ∨ part = text ∧ rank other < rank symbol := by
  generalize size : count + 1 = more at calls
  induction calls generalizing count with
  | here => cases size
  | @next count symbol text middle part last rest first onward ih =>
      have step := ordered.step first
      cases onward with
      | here => exact step
      | next second onward =>
          obtain ⟨less | ⟨rfl, lower⟩, fewer | ⟨rfl, below⟩⟩ := And.intro step (ih rfl)
          · exact .inl (Nat.lt_trans fewer less)
          · exact .inl less
          · exact .inl fewer
          · exact .inr ⟨rfl, Nat.lt_trans below lower⟩

/-- A symbol is entered again only with less text. -/
theorem Ordered.reenters (ordered : Ordered rules known rank) {count : Nat} {symbol : Symbol}
    {part : List Char} (calls : Calls rules (count + 1) symbol text symbol part) :
    part.length < text.length :=
  (ordered.run calls).resolve_right fun same => Nat.lt_irrefl _ same.2

/-- A symbol is entered inside itself no more often than there are characters. -/
theorem Ordered.depth_le (ordered : Ordered rules known rank) {depth : Nat} {symbol : Symbol}
    (reenters : Reenters rules depth symbol text) : depth ≤ text.length := by
  induction reenters with
  | none => exact Nat.zero_le _
  | again calls inside ih => exact Nat.lt_of_le_of_lt ih (ordered.reenters calls)

/-- There are no more calls inside each other than ranks for each character and for the end. -/
theorem Ordered.count_le (ordered : Ordered rules known rank) {top : Nat}
    (ranks : ∀ symbol, rank symbol < top) {count : Nat} {symbol other : Symbol} {part : List Char}
    (calls : Calls rules count symbol text other part) :
    count + part.length * top + rank other ≤ text.length * top + rank symbol := by
  induction calls with
  | here => simp
  | @next count symbol text middle part last rest first onward ih =>
      rcases ordered.step first with less | ⟨rfl, lower⟩
      · have room : part.length * top + top ≤ text.length * top := by
          rw [← Nat.succ_mul]
          exact Nat.mul_le_mul_right top less
        have := ranks middle
        omega
      · omega

/-! Every symbol answers -/

/-- A form answers for a text if the symbols it may enter at once do, and all symbols for shorter
texts. -/
theorem Ordered.answers_form (ordered : Ordered rules known rank)
    (solid : ∀ item ∈ form.repeated, item.mayBeEmpty known = false)
    (first : ∀ symbol ∈ form.entered known, ∃ answer, Answers rules (.symbol symbol) text answer)
    (later : ∀ part : List Char, part.length < text.length → ∀ symbol,
      ∃ answer, Answers rules (.symbol symbol) part answer) :
    ∃ answer, Answers rules form text answer := by
  induction form generalizing text with
  | empty => exact ⟨_, .empty⟩
  | trivia => exact ⟨_, .trivia⟩
  | token token => exact ⟨_, .token rfl⟩
  | symbol symbol => exact first symbol (List.mem_singleton.mpr rfl)
  | row front back frontIh backIh =>
      obtain ⟨answer, taken⟩ := frontIh
        (fun item member => solid item (List.mem_append_left _ member))
        (fun symbol member => first symbol (List.mem_append_left _ member)) later
      cases answer with
      | none => exact ⟨none, .rowFront taken⟩
      | some length =>
          obtain ⟨answer, more⟩ : ∃ answer, Answers rules back (text.drop length) answer := by
            refine backIh (fun item member => solid item (List.mem_append_right _ member)) ?_ ?_
            · intro symbol member
              by_cases nothing : length = 0
              · subst nothing
                refine first symbol (List.mem_append_right _ ?_)
                rwa [if_pos (ordered.mayBeEmpty_of_answers taken)]
              · have := taken.length_le
                refine later _ ?_ symbol
                rw [List.length_drop]
                omega
            · intro part shorter
              refine later part ?_
              rw [List.length_drop] at shorter
              omega
          cases answer with
          | none => exact ⟨none, .rowBack taken more⟩
          | some rest => exact ⟨_, .row taken more⟩
  | choice one other oneIh otherIh =>
      obtain ⟨answer, taken⟩ := oneIh
        (fun item member => solid item (List.mem_append_left _ member))
        (fun symbol member => first symbol (List.mem_append_left _ member)) later
      cases answer with
      | some length => exact ⟨_, .choice taken⟩
      | none =>
          obtain ⟨answer, tried⟩ := otherIh
            (fun item member => solid item (List.mem_append_right _ member))
            (fun symbol member => first symbol (List.mem_append_right _ member)) later
          exact ⟨answer, .choiceOther taken tried⟩
  | star item ih =>
      -- the item takes something, so the rest of the repetition has less text
      induction size : text.length using Nat.strongRecOn generalizing text with
      | ind size shorter =>
          subst size
          obtain ⟨answer, taken⟩ := ih
            (fun inner member => solid inner (List.mem_cons_of_mem _ member)) first later
          cases answer with
          | none => exact ⟨_, .starEnd taken⟩
          | some length =>
              have positive := ordered.positive (solid item List.mem_cons_self) taken
              have less : (text.drop length).length < text.length := by
                have := taken.length_le
                rw [List.length_drop]
                omega
              obtain ⟨answer, others⟩ := shorter _ less
                (fun symbol _ => later _ less symbol)
                (fun part fewer => later part (Nat.lt_trans fewer less)) rfl
              cases others with
              | star first others => exact ⟨_, .star taken (.star first others)⟩
              | starEnd fails => exact ⟨_, .star taken (.starEnd fails)⟩
  | ahead inner ih =>
      obtain ⟨answer, found⟩ := ih solid first later
      cases answer with
      | none => exact ⟨none, .aheadFails found⟩
      | some length => exact ⟨_, .ahead found⟩
  | absent inner ih =>
      obtain ⟨answer, found⟩ := ih solid first later
      cases answer with
      | none => exact ⟨_, .absent found⟩
      | some length => exact ⟨none, .absentFails found⟩

/-- Every symbol has an answer for every text. -/
theorem Ordered.answers (ordered : Ordered rules known rank) (symbol : Symbol) (text : List Char) :
    ∃ answer, Answers rules (.symbol symbol) text answer := by
  induction size : text.length using Nat.strongRecOn generalizing symbol text with
  | ind size shorter =>
      subst size
      induction height : rank symbol using Nat.strongRecOn generalizing symbol with
      | ind height lower =>
          subst height
          obtain ⟨answer, body⟩ := ordered.answers_form (ordered.repeated symbol)
            (fun other member => lower _ (ordered.entered symbol other member) other rfl)
            (fun part less other => shorter _ less other part rfl)
          exact ⟨answer, .symbol body⟩

theorem mem_repeated_trans {item inner : Form Symbol} (outer : item ∈ form.repeated)
    (member : inner ∈ item.repeated) : inner ∈ form.repeated := by
  induction form with
  | empty | trivia | token | symbol => cases outer
  | row first second firstIh secondIh | choice first second firstIh secondIh =>
      rcases List.mem_append.mp outer with left | right
      · exact List.mem_append_left _ (firstIh left)
      · exact List.mem_append_right _ (secondIh right)
  | star form ih =>
      rcases List.mem_cons.mp outer with rfl | deeper
      · exact List.mem_cons_of_mem _ member
      · exact List.mem_cons_of_mem _ (ih deeper)
  | ahead form ih | absent form ih => exact ih outer

/-- A repetition ends, after no more rounds than there are characters. -/
theorem Ordered.rounds (ordered : Ordered rules known rank) {symbol : Symbol} {item : Form Symbol}
    (member : item ∈ (rules symbol).repeated) (text : List Char) :
    (∃ count, Rounds rules item text count) ∧
      ∀ count, Rounds rules item text count → count ≤ text.length := by
  have solid := ordered.repeated symbol item member
  have drops : ∀ {text length}, Answers rules item text (some length) →
      (text.drop length).length < text.length := by
    intro text length taken
    have := ordered.positive solid taken
    have := taken.length_le
    rw [List.length_drop]
    omega
  constructor
  · induction size : text.length using Nat.strongRecOn generalizing text with
    | ind size shorter =>
        subst size
        obtain ⟨answer, taken⟩ : ∃ answer, Answers rules item text answer :=
          ordered.answers_form
            (fun inner deeper => ordered.repeated symbol inner (mem_repeated_trans member deeper))
            (fun other _ => ordered.answers other text) (fun part _ other => ordered.answers other part)
        cases answer with
        | none => exact ⟨0, .done taken⟩
        | some length =>
            obtain ⟨count, others⟩ := shorter _ (drops taken) _ rfl
            exact ⟨count + 1, .again taken others⟩
  · intro count rounds
    induction rounds with
    | done fails => exact Nat.zero_le _
    | again first others ih =>
        have := drops first
        omega

end Grammar

end PhpAudit
