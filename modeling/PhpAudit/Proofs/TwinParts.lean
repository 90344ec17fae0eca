import PhpAudit.Proofs.BareOutlines
import PhpAudit.Proofs.KeptOperators
import PhpAudit.Proofs.TwinReading

/-!
What two texts have to share so that they read alike, and the readers of names, type hints,
parameters and members of classes on such texts.
-/

namespace PhpAudit

namespace Lexeme

/-- The rules that look for white space by themselves. -/
def spacedRules : List Lexeme :=
  [cast, keywordCall "array", keywordCall "list", keywordCall "match", enumKeyword,
    namespaceKeyword]

end Lexeme

open Reader

/-- A binary operator and the operand behind it. -/
def Reader.operation (nested : Nested) : Reader (BinaryOperator × Expr) := do
  let operator ← binaryOperator
  skip
  let operand ← nested.unary
  return (operator, operand)

/-- Two texts, with the readers of the parts nested in their rules, that are twins as far as single
lexemes and nested parts go. -/
structure Nested.Twinned (related : Cursor → Cursor → Prop) (nested other : Nested) : Prop where
  short : ∀ cursor place, related cursor place →
    cursor.rest.length < nested.limit ∧ place.rest.length < other.limit
  settled : ∀ {accepts}, Lexeme.Settled accepts → ∀ {cursor place}, related cursor place →
    accepts cursor.rest = accepts place.rest
  neededNames : Twins True related Identifier.value neededName neededName
  instanceOfs : Twins True related id instanceOfWord instanceOfWord
  skips : Twins False related (fun _ => ()) Reader.skip Reader.skip
  kept : ∀ {rule : Lexeme}, rule.Kept → Twins True related id (lexeme rule) (lexeme rule)
  spaced : ∀ {rule}, rule ∈ Lexeme.spacedRules →
    Twins True related id (lexeme rule) (lexeme rule)
  closingTags : Twins True related (List.map fun statement => statement.outline.bare)
    closingTag closingTag
  stuck : ∀ {cursor place}, related cursor place → Lexeme.stuck cursor.rest = true →
    (operation nested).Fails cursor ∧ (operation other).Fails place
  hints : Twins True related (fun hint => hint.outline.bare) nested.hint other.hint
  unaries : Twins True related (fun value => value.outline.bare) nested.unary other.unary
  binaries : Twins True related (fun value => value.outline.bare) nested.binary other.binary
  ternaries : Twins True related (fun value => value.outline.bare) nested.ternary other.ternary
  expressions : Twins True related (fun value => value.outline.bare)
    nested.expression other.expression
  statements : Twins True related (List.map fun statement => statement.outline.bare)
    nested.statement other.statement

/-- Twins whose class bodies are twins as well. -/
structure Nested.ClassTwinned (related : Cursor → Cursor → Prop) (nested other : Nested) : Prop
    extends Nested.Twinned related nested other where
  classBodies : Twins True related (List.map fun member => (outlineMember member).bare)
    (classBody nested) (classBody other)

namespace Nested.Twinned

section Tokens

variable {onward : Prop} {related : Cursor → Cursor → Prop} {nested other : Nested}
  {Value View : Type} {view : Value → View} {next later : Reader Value} {text : String}

theorem lexeme {rule : Lexeme} (twinned : Twinned related nested other) (kept : rule.Kept) :
    Twins onward related id (lexeme rule) (lexeme rule) :=
  (twinned.kept kept).weaken fun _ => trivial

theorem mark (twinned : Twinned related nested other)
    (close : Lexeme.closeMark text.toList = true) :
    Twins onward related (fun _ => ()) (mark text) (mark text) :=
  (twinned.lexeme (Lexeme.kept_closeMark close)).token

theorem keyword {word : String} (twinned : Twinned related nested other)
    (solid : Lexeme.solidWord word = true) :
    Twins onward related (fun _ => ()) (keyword word) (keyword word) :=
  (twinned.lexeme (Lexeme.kept_keyword solid)).token

/-- A rule that looks for white space by itself. -/
theorem apart (twinned : Twinned related nested other) (rule : Lexeme)
    (known : rule ∈ Lexeme.spacedRules) :
    Twins onward related id (Reader.lexeme rule) (Reader.lexeme rule) :=
  (twinned.spaced known).weaken fun _ => trivial

/-- A mark and what follows it behind white space. -/
theorem opens (twinned : Twinned related nested other)
    (close : Lexeme.closeMark text.toList = true) (rest : Twins False related view next later) :
    Twins onward related view (do Reader.mark text; Reader.skip; next)
      (do Reader.mark text; Reader.skip; later) :=
  (twinned.mark close).pass (twinned.skips.beyond rest)

/-- A mark behind white space and what follows it. -/
theorem closes (twinned : Twinned related nested other)
    (close : Lexeme.closeMark text.toList = true) (rest : Twins False related view next later) :
    Twins onward related view (do Reader.skip; Reader.mark text; next)
      (do Reader.skip; Reader.mark text; later) :=
  twinned.skips.beyond ((twinned.mark close).pass rest)

/-- A mark between white space and what follows it. -/
theorem divides (twinned : Twinned related nested other)
    (close : Lexeme.closeMark text.toList = true) (rest : Twins False related view next later) :
    Twins onward related view (do Reader.skip; Reader.mark text; Reader.skip; next)
      (do Reader.skip; Reader.mark text; Reader.skip; later) :=
  twinned.skips.beyond (twinned.opens close rest)

/-- A word and what follows it behind white space. -/
theorem starts (twinned : Twinned related nested other)
    (solid : Lexeme.solidWord text = true) (rest : Twins False related view next later) :
    Twins onward related view (do Reader.keyword text; Reader.skip; next)
      (do Reader.keyword text; Reader.skip; later) :=
  (twinned.keyword solid).pass (twinned.skips.beyond rest)

/-- Looking ahead at a lexeme that is settled before a break. -/
theorem peek {rule : Lexeme} (twinned : Twinned related nested other)
    (settled : Lexeme.Settled fun text => (rule text).isSome) :
    Twins False related (fun _ => ()) (ahead (token rule)) (ahead (token rule)) := by
  have run : ∀ cursor : Cursor, (ahead (token rule)).run cursor =
      if (rule cursor.rest).isSome then some ((), cursor) else none := by
    intro cursor
    simp only [ahead, token]
    cases rule cursor.rest <;> rfl
  intro cursor place relation
  have same : (rule cursor.rest).isSome = (rule place.rest).isSome :=
    twinned.settled settled relation
  rw [run, run, same]
  split
  · exact .some ⟨rfl, relation, False.elim⟩
  · exact .none

end Tokens

section Lists

variable {onward : Prop} {related : Cursor → Cursor → Prop} {nested other : Nested}
  {Value View : Type} {view : Value → View} {reader second : Reader Value}

theorem many (twinned : Twinned related nested other)
    (twins : Twins True related view reader second) :
    Twins False related (List.map view) (many nested.limit reader) (many other.limit second) :=
  twins.many twinned.short

theorem commaList (twinned : Twinned related nested other)
    (twins : Twins True related view reader second) :
    Twins onward related (List.map view) (commaList nested.limit reader)
      (commaList other.limit second) :=
  twins.commaList twinned.skips (twinned.mark (by decide)) twinned.short

theorem trailingCommaList (twinned : Twinned related nested other)
    (twins : Twins True related view reader second) :
    Twins False related (List.map view) (trailingCommaList nested.limit reader)
      (trailingCommaList other.limit second) := by
  have items : Twins False related (List.map view)
      (do
        let items ← Reader.commaList nested.limit reader
        Reader.skip
        discard (perhaps (Reader.mark ","))
        return items)
      (do
        let items ← Reader.commaList other.limit second
        Reader.skip
        discard (perhaps (Reader.mark ","))
        return items) := by
    refine (twinned.commaList twins).bind fun items others alike => ?_
    exact twinned.skips.beyond ((twinned.mark (by decide)).perhaps.discard.pass (.give alike))
  refine items.perhaps.bind fun found others alike => .give ?_
  cases found <;> cases others <;> simp_all

end Lists

end Nested.Twinned

namespace Reader

theorem isEmpty_eq_of_map {Value View : Type} {view : Value → View} {values others : List Value}
    (alike : values.map view = others.map view) : values.isEmpty = others.isEmpty := by
  cases values <;> cases others <;> simp_all

/-- Lists that look alike do so to everyone who sees no more. -/
theorem map_eq_of_map {Value View Sight : Type} {view : Value → View} {see : Value → Sight}
    (same : ∀ value found, view value = view found → see value = see found)
    {values others : List Value} (alike : values.map view = others.map view) :
    values.map see = others.map see := by
  induction values generalizing others with
  | nil =>
      obtain rfl : others = [] := List.map_eq_nil_iff.mp alike.symm
      rfl
  | cons value rest ih =>
      obtain ⟨found, more, rfl, first, behind⟩ := List.map_eq_cons_iff.mp alike.symm
      rw [List.map_cons, List.map_cons, same value found first.symm, ih behind.symm]

variable {onward : Prop} {related : Cursor → Cursor → Prop} {nested other : Nested}
  (twinned : nested.Twinned related other)

include twinned

theorem terminator_twins : Twins False related (fun _ => ()) terminator terminator :=
   (twinned.mark (by decide)).orElse (twinned.peek (Lexeme.settled_mark (by decide)))

/-! Names -/

theorem neededName_twins :
    Twins onward related Identifier.value neededName neededName :=
  twinned.neededNames.weaken fun _ => trivial

theorem listedName_twins : Twins onward related id listedName listedName :=
  (twinned.lexeme Lexeme.kept_name).listedName

theorem nameList_twins :
    Twins onward related id (nameList nested.limit) (nameList other.limit) :=
  (twinned.lexeme Lexeme.kept_name).nameList twinned.skips (twinned.mark (by decide)) twinned.short

theorem memberName_twins : Twins onward related Identifier.value memberName memberName :=
  .here fun _ _ => (twinned.lexeme Lexeme.kept_identifier).bind fun _ _ same => .give same

theorem dollarName_twins : Twins onward related id dollarName dollarName :=
  twinned.lexeme Lexeme.kept_dollarName

theorem byRef_twins : Twins False related id byRef byRef :=
  ((twinned.mark (by decide)).pass twinned.skips).given

theorem attributes_twins :
    Twins False related (fun _ => ()) (attributes nested.limit) (attributes other.limit) :=
  (twinned.many ((twinned.lexeme Lexeme.kept_attributeGroup).token.pass twinned.skips)).discard

/-! Type hints -/

theorem hintName_twins :
    Twins onward related (fun hint => hint.outline.bare) hintName hintName := by
  refine .here fun span place => ?_
  refine (twinned.lexeme Lexeme.kept_qualified).bind fun text found same => .give ?_
  obtain rfl : text = found := same
  split
  · rfl
  · split <;> rfl

theorem hintAtom_twins :
    Twins onward related (fun hint => hint.outline.bare) (hintAtom nested) (hintAtom other) := by
  refine Twins.orElse (twinned.opens (by decide) ?_) (hintName_twins twinned)
  refine (twinned.hints.weaken False.elim).bind fun hint found same => ?_
  exact twinned.closes (by decide) (.give same)

theorem joinedHint_twins :
    Twins onward related (fun hint => hint.outline.bare) (joinedHint nested) (joinedHint other) := by
  have atom : Twins False related (fun hint => hint.outline.bare) (hintAtom nested)
    (hintAtom other) := hintAtom_twins twinned
  unfold joinedHint
  refine .here fun span place => (hintAtom_twins twinned).bind fun first found same => ?_
  refine (twinned.many (twinned.divides (by decide) atom)).bind fun alternatives others alike => ?_
  rw [isEmpty_eq_of_map alike]
  split
  · exact .give (by simp [Hint.outline, same, alike, Function.comp_def])
  · have mark : Twins False related (fun _ => ()) (do skip; mark "$" <|> mark "...")
        (do skip; mark "$" <|> mark "...") :=
      twinned.skips.beyond ((twinned.mark (by decide)).orElse (twinned.mark (by decide)))
    refine (twinned.many (twinned.skips.beyond ((twinned.mark (by decide)).pass
      (mark.absent.beyond (twinned.skips.beyond atom))))).bind fun parts found alike => .give ?_
    rw [isEmpty_eq_of_map alike]
    split
    · exact same
    · simp [Hint.outline, same, alike, Function.comp_def]

omit twinned in
/-- A nullable hint whose question mark starts no closing tag. -/
def freeNullable (nested : Nested) : Reader Hint := do
  let span ← here
  token (Lexeme.operatorMark ['?'] ['>'])
  skip
  return .nullable span (← hintAtom nested)

omit twinned in
/-- No hint starts with the rest of a closing tag. -/
theorem hintAtom_fails {nested : Nested} {cursor : Cursor} {rest : List Char}
    (ahead : cursor.rest = '>' :: rest) : (hintAtom nested).Fails cursor := by
  have group : Lexeme.mark "(".toList cursor.rest = none := by
    rw [ahead]
    rfl
  have name : Lexeme.qualified cursor.rest = none := by
    rw [ahead]
    rfl
  exact (Fails.token group).bind.orElse (.here (Fails.lexeme name).bind)

omit twinned in
theorem nullableHint_fails {nested : Nested} {cursor : Cursor} {rest : List Char}
    (ahead : cursor.rest = '?' :: '>' :: rest) : (nullableHint nested).Fails cursor := by
  have mark : (mark "?").run cursor = some ((), cursor.advance 1) := by
    simp [mark, token, Lexeme.mark, ahead]
  have behind : (cursor.advance 1).rest = '>' :: rest := by
    simp [Cursor.advance, Cursor.next, ahead]
  have still : skip.run (cursor.advance 1) = some ((), cursor.advance 1) := by
    have trivia : Lexeme.trivia (cursor.advance 1).rest = 0 := by
      rw [behind]
      exact Lexeme.trivia_zero rfl
    simp only [skip, trivia]
    rfl
  exact .here (.after mark (.after still (hintAtom_fails behind).bind))

omit twinned in
theorem nullableHint_run {nested : Nested} {cursor : Cursor}
    (free : (Lexeme.mark "?>".toList cursor.rest).isSome = false) :
    (nullableHint nested).run cursor = (freeNullable nested).run cursor := by
  have same : Lexeme.mark "?".toList cursor.rest =
      Lexeme.operatorMark ['?'] ['>'] cursor.rest := by
    cases ahead : cursor.rest with
    | nil => rfl
    | cons first rest =>
        rw [ahead] at free
        cases rest with
        | nil => by_cases sign : first = '?' <;>
            simp [Lexeme.mark, Lexeme.operatorMark, Lexeme.before, Lexeme.startsWith, sign]
        | cons second others =>
            by_cases sign : first = '?' <;>
              simp_all [Lexeme.mark, Lexeme.operatorMark, Lexeme.before, Lexeme.startsWith]
  have place : here.run cursor = some (cursor.span, cursor) := rfl
  rw [nullableHint, freeNullable, run_bind_of_some place, run_bind_of_some place]
  refine run_bind_congr ?_
  simp only [mark, token, same]

theorem nullableHint_twins :
    Twins onward related (fun hint => hint.outline.bare) (nullableHint nested)
      (nullableHint other) := by
  have free : Twins onward related (fun hint : Hint => hint.outline.bare) (freeNullable nested)
      (freeNullable other) := by
    refine .here fun span place => (twinned.lexeme Lexeme.kept_loneQuestion).token.pass ?_
    refine twinned.skips.beyond ((hintAtom_twins twinned).bind fun hint found same => .give ?_)
    simp [Hint.outline, same]
  intro cursor place relation
  have same : (Lexeme.mark "?>".toList cursor.rest).isSome =
      (Lexeme.mark "?>".toList place.rest).isSome :=
    twinned.settled (Lexeme.settled_mark (by decide)) relation
  cases closing : (Lexeme.mark "?>".toList cursor.rest).isSome with
  | true =>
      obtain ⟨_, found⟩ := Option.isSome_iff_exists.mp closing
      obtain ⟨_, second⟩ := Option.isSome_iff_exists.mp (same ▸ closing)
      exact Twins.of_fails (nullableHint_fails (Lexeme.mark_eq_some found))
        (nullableHint_fails (Lexeme.mark_eq_some second))
  | false =>
      rw [nullableHint_run closing, nullableHint_run (same ▸ closing)]
      exact free relation

theorem hint_twins :
    Twins onward related (fun hint => hint.outline.bare) (hint nested) (hint other) :=
  (nullableHint_twins twinned).orElse (joinedHint_twins twinned)

theorem returnHint_twins :
    Twins onward related (fun hint => hint.outline.bare) (returnHint nested) (returnHint other) :=
  twinned.opens (by decide) ((hint_twins twinned).bind fun _ _ same =>
    twinned.skips.beyond (.give same))

theorem leadingHint_twins :
    Twins onward related (fun hint => hint.outline.bare) (leadingHint nested) (leadingHint other) :=
  (hint_twins twinned).bind fun _ _ same => twinned.skips.beyond (.give same)

omit twinned in
theorem outlineHint_bare {first second : Option Hint}
    (same : first.map (fun hint => hint.outline.bare) = second.map fun hint => hint.outline.bare) :
    (outlineHint first).bare = (outlineHint second).bare := by
  cases first <;> cases second <;> simp_all [outlineHint]

/-! Statements and blocks -/

theorem statementList_twins :
    Twins False related (List.map fun statement => statement.outline.bare) (statementList nested)
      (statementList other) := by
  have group : Twins True related (List.map fun statement : Stmt => statement.outline.bare)
      (do let statements ← nested.statement; skip; return statements)
      (do let statements ← other.statement; skip; return statements) :=
    twinned.statements.bind fun _ _ same => twinned.skips.beyond (.give same)
  refine (twinned.many group).bind fun groups others alike => .give ?_
  rw [List.map_flatten, List.map_flatten, alike]

theorem block_twins :
    Twins onward related (fun block => (outlineBlock block).bare) (block nested) (block other) := by
  refine .here fun span place => twinned.opens (by decide) ?_
  refine (statementList_twins twinned).bind fun statements others alike => ?_
  refine (twinned.mark (by decide)).pass (.give ?_)
  simp [outlineBlock, alike, Function.comp_def]

theorem initialValue_twins :
    Twins False related (Option.map fun value => value.outline.bare) (initialValue nested)
      (initialValue other) :=
  (twinned.divides (by decide) (twinned.expressions.weaken False.elim)).perhaps

/-! Parameters -/

theorem parameter_twins :
    Twins onward related (fun parameter => (outlineParameter parameter).bare) (parameter nested)
      (parameter other) := by
  have modifier : Twins True related id
      (do let modifier ← lexeme Lexeme.parameterModifier; skip; return lowerWord modifier)
      (do let modifier ← lexeme Lexeme.parameterModifier; skip; return lowerWord modifier) :=
    (twinned.lexeme Lexeme.kept_parameterModifier).bind fun _ _ same =>
      twinned.skips.beyond (.give (congrArg lowerWord same))
  refine .here fun span place => (attributes_twins twinned).beyond ?_
  refine (twinned.many modifier).later fun modifiers modifiers' sameModifiers => ?_
  refine (leadingHint_twins twinned).perhaps.later fun hint hint' sameHint => ?_
  refine (byRef_twins twinned).later fun byRef byRef' sameRef => ?_
  refine ((twinned.mark (by decide)).pass twinned.skips).given.later
    fun variadic variadic' sameVariadic => ?_
  refine (dollarName_twins twinned).bind fun name name' sameName => ?_
  refine (initialValue_twins twinned).bind fun initial initial' sameInitial => .give ?_
  rw [List.map_id, List.map_id] at sameModifiers
  obtain rfl : byRef = byRef' := sameRef
  obtain rfl : variadic = variadic' := sameVariadic
  obtain rfl : name = name' := sameName
  simp [outlineParameter, outlineHint_bare sameHint, outlineOption_bare sameInitial, sameModifiers]

theorem parameterList_twins :
    Twins onward related (List.map fun parameter => (outlineParameter parameter).bare)
      (parameterList nested) (parameterList other) :=
  twinned.opens (by decide) ((twinned.trailingCommaList (parameter_twins twinned)).bind
    fun _ _ alike => twinned.closes (by decide) (.give alike))

/-! Members -/

theorem memberModifiers_twins :
    Twins False related id (memberModifiers nested) (memberModifiers other) := by
  have modifier : Twins True related id
      (do let modifier ← lexeme Lexeme.memberModifier; skip; return lowerWord modifier)
      (do let modifier ← lexeme Lexeme.memberModifier; skip; return lowerWord modifier) :=
    (twinned.lexeme Lexeme.kept_memberModifier).bind fun _ _ same =>
      twinned.skips.beyond (.give (congrArg lowerWord same))
  exact (twinned.many modifier).sees fun _ _ alike => by simpa using alike

theorem enumCase_twins :
    Twins onward related (fun member => (outlineMember member).bare) (enumCase nested)
      (enumCase other) := by
  refine .here fun span place => twinned.starts (by decide) ?_
  refine (memberName_twins twinned).bind fun name name' sameName => ?_
  refine (initialValue_twins twinned).bind fun initial initial' sameInitial => ?_
  refine twinned.skips.beyond ((terminator_twins twinned).pass (.give ?_))
  simp [outlineMember, Identifier.outline, sameName, outlineOption_bare sameInitial]

theorem constantEntry_twins :
    Twins onward related (fun entry => (entry.name.value, entry.value.outline.bare))
      (constantEntry nested) (constantEntry other) := by
  refine .here fun span place => (memberName_twins twinned).bind fun name name' sameName => ?_
  refine twinned.divides (by decide) ?_
  refine (twinned.expressions.weaken False.elim).bind fun value value' sameValue => .give ?_
  rw [sameName, sameValue]

omit twinned in
theorem outlineConstants_bare {entries others : List (ConstantEntry Expr)}
    (alike : entries.map (fun entry => (entry.name.value, entry.value.outline.bare)) =
      others.map fun entry => (entry.name.value, entry.value.outline.bare)) :
    entries.map (fun entry => (outlineConstant entry).bare) =
      others.map fun entry => (outlineConstant entry).bare := by
  refine map_eq_of_map ?_ alike
  rintro ⟨_, _, _⟩ ⟨_, _, _⟩ same
  dsimp only at same
  obtain ⟨name, value⟩ := Prod.mk.inj same
  simp [outlineConstant, Identifier.outline, name, value]

theorem classConstant_twins :
    Twins onward related (fun member => (outlineMember member).bare) (classConstant nested)
      (classConstant other) := by
  have hinted : Twins False related (fun hint : Hint => hint.outline.bare)
      (do
        let hint ← leadingHint nested
        ahead do
          discard memberName
          skip
          mark "="
        return hint)
      (do
        let hint ← leadingHint other
        ahead do
          discard memberName
          skip
          mark "="
        return hint) := by
    refine (leadingHint_twins twinned).bind fun hint hint' same => ?_
    exact ((memberName_twins twinned).discard.pass
      (twinned.skips.beyond (twinned.mark (by decide)))).ahead.pass (.give same)
  refine .here fun span place => (memberModifiers_twins twinned).later
    fun modifiers modifiers' sameModifiers => twinned.starts (by decide) ?_
  refine hinted.perhaps.bind fun hint hint' sameHint => ?_
  refine (twinned.commaList (constantEntry_twins twinned)).bind fun entries entries' alike => ?_
  refine twinned.skips.beyond ((terminator_twins twinned).pass (.give ?_))
  obtain rfl : modifiers = modifiers' := sameModifiers
  simp [outlineMember, outlineHint_bare sameHint, outlineConstants_bare alike, Function.comp_def]

/-- A block, or the end of a declaration without one. -/
theorem bodyOrEnd_twins :
    Twins False related (Option.map fun block => (outlineBlock block).bare)
      ((some <$> block nested) <|> (do terminator; return none))
      ((some <$> block other) <|> (do terminator; return none)) := by
  refine Twins.orElse ((block_twins twinned).map fun _ _ same => congrArg some same) ?_
  exact (terminator_twins twinned).pass (.give rfl)

omit twinned in
theorem outlineOptionBlock_bare {first second : Option (Block Stmt)}
    (same : first.map (fun block => (outlineBlock block).bare) =
      second.map fun block => (outlineBlock block).bare) :
    (outlineOptionBlock first).bare = (outlineOptionBlock second).bare := by
  cases first <;> cases second <;> simp_all [outlineOptionBlock]

theorem method_twins :
    Twins onward related (fun member => (outlineMember member).bare) (method nested)
      (method other) := by
  refine .here fun span place => (memberModifiers_twins twinned).later
    fun modifiers modifiers' sameModifiers => twinned.starts (by decide) ?_
  refine (byRef_twins twinned).bind fun byRef byRef' sameRef => ?_
  refine (memberName_twins twinned).bind fun name name' sameName => twinned.skips.beyond ?_
  refine (parameterList_twins twinned).bind fun parameters parameters' alike => ?_
  refine twinned.skips.beyond ((returnHint_twins twinned).perhaps.bind fun hint hint' sameHint => ?_)
  refine (bodyOrEnd_twins twinned).bind fun body body' sameBody => .give ?_
  obtain rfl : modifiers = modifiers' := sameModifiers
  obtain rfl : byRef = byRef' := sameRef
  simp [outlineMember, outlineMethod, Identifier.outline, sameName, alike,
    outlineHint_bare sameHint, outlineOptionBlock_bare sameBody, Function.comp_def]

theorem variableEntry_twins :
    Twins onward related
      (fun entry => (entry.name, entry.initial.map fun value => value.outline.bare))
      (variableEntry nested) (variableEntry other) := by
  refine .here fun span place => (dollarName_twins twinned).bind fun name name' sameName => ?_
  refine (initialValue_twins twinned).bind fun initial initial' sameInitial => .give ?_
  obtain rfl : name = name' := sameName
  rw [sameInitial]

omit twinned in
theorem outlineVariables_bare (label : String) {entries others : List (VariableEntry Expr)}
    (alike : entries.map (fun entry =>
        (entry.name, entry.initial.map fun value => value.outline.bare)) =
      others.map fun entry => (entry.name, entry.initial.map fun value => value.outline.bare)) :
    entries.map (fun entry => (outlineVariable label entry).bare) =
      others.map fun entry => (outlineVariable label entry).bare := by
  refine map_eq_of_map ?_ alike
  rintro ⟨_, _, _⟩ ⟨_, _, _⟩ same
  dsimp only at same
  obtain ⟨name, initial⟩ := Prod.mk.inj same
  simp [outlineVariable, name, outlineOption_bare initial]

theorem property_twins :
    Twins onward related (fun member => (outlineMember member).bare) (property nested)
      (property other) := by
  unfold property
  refine .here fun span place => (memberModifiers_twins twinned).later
    fun modifiers modifiers' sameModifiers => ?_
  obtain rfl : modifiers = modifiers' := sameModifiers
  dsimp only
  split
  · exact fun _ _ _ => .none
  · refine (leadingHint_twins twinned).perhaps.later fun hint hint' sameHint => ?_
    refine (twinned.commaList (variableEntry_twins twinned)).bind fun entries entries' alike => ?_
    refine twinned.skips.beyond ((terminator_twins twinned).pass (.give ?_))
    simp [outlineMember, outlineHint_bare sameHint, outlineVariables_bare _ alike,
      Function.comp_def]

theorem extendsClause_twins : Twins onward related id extendsClause extendsClause :=
  twinned.starts (by decide) ((neededName_twins twinned).bind fun _ _ same =>
    twinned.skips.beyond (.give same))

theorem namesAfter_twins {word : String} (solid : Lexeme.solidWord word = true) :
    Twins False related id (namesAfter word nested) (namesAfter word other) := by
  have names : Twins False related id
      (do keyword word; skip; let names ← nameList nested.limit; skip; return names)
      (do keyword word; skip; let names ← nameList other.limit; skip; return names) :=
    twinned.starts solid ((nameList_twins twinned).bind fun _ _ same =>
      twinned.skips.beyond (.give same))
  refine names.perhaps.bind fun found found' same => .give ?_
  rw [Option.map_id, id, id] at same
  rw [same]

end Reader

end PhpAudit
