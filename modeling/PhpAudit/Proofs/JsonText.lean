import PhpAudit.Proofs.EntryTables
import PhpAudit.Proofs.JsonTokens

/-!
JSON text that was written is read as the value it was written for, unless a whole number in it has
too many digits. Lists and objects are read by induction over their parts, of which each is read up
to the comma or the line feed behind it.
-/

namespace PhpAudit

namespace Json

/-- Values without floats, with one value for each name of an object and only with whole numbers of
some kind. -/
inductive Storable (allowed : Int → Prop) : Json → Prop
  | null : Storable allowed .null
  | bool (value : Bool) : Storable allowed (.bool value)
  | int {value : Int} (fits : allowed value) : Storable allowed (.int value)
  | text (value : String) : Storable allowed (.text value)
  | list {items : List Json} (each : ∀ item ∈ items, Storable allowed item) :
      Storable allowed (.list items)
  | object {entries : List (String × Json)} (distinct : (Entries.keys entries).Nodup)
      (each : ∀ entry ∈ entries, Storable allowed entry.2) : Storable allowed (.object entries)

def digitsOf (value : Int) : List Char := Nat.toDigits 10 value.natAbs

/-- Whole numbers that are not too long to be read. -/
def Short (value : Int) : Prop := (digitsOf value).length ≤ digitLimit

instance (value : Int) : Decidable (Short value) := inferInstanceAs (Decidable (_ ≤ _))

/-- The first whole number that is too long has the given number of digits. -/
inductive Overlong : Json → Nat → Prop
  | int {value : Int} (long : ¬ Short value) : Overlong (.int value) (digitsOf value).length
  | list {before after : List Json} {item : Json} {count : Nat}
      (short : ∀ item ∈ before, Storable Short item) (here : Overlong item count) :
      Overlong (.list (before ++ item :: after)) count
  | object {before after : List (String × Json)} {entry : String × Json} {count : Nat}
      (short : ∀ entry ∈ before, Storable Short entry.2) (here : Overlong entry.2 count) :
      Overlong (.object (before ++ entry :: after)) count

section Value

variable {reader : ValueReader} {width level : Nat} {rest : List Char}

/-- Wherever the text stands, with a comma, a line feed or nothing behind it, it is read as the
value. -/
def ReadsAs (reader : ValueReader) (text : List Char) (value : Json) : Prop :=
  ∀ offset rest, Separated rest →
    ∃ reached, reader ⟨offset, text ++ rest⟩ = .ok (value, ⟨reached, rest⟩)

/-- Wherever the text stands it is refused. -/
def Refused (reader : ValueReader) (text : List Char) (kind : FaultKind) : Prop :=
  ∀ offset rest, Separated rest → ∃ place, reader ⟨offset, text ++ rest⟩ = .error ⟨kind, place⟩

/-- A text that is not empty and starts neither with white space nor with a closing bracket. -/
def Opens (text : List Char) : Prop :=
  ∃ first more, text = first :: more ∧ Place.isSpace first = false ∧ first ≠ ']' ∧ first ≠ '\x7d'

theorem Opens.stops {text : List Char} (opens : Opens text) (rest : List Char) :
    ∀ character ∈ (text ++ rest).head?, Place.isSpace character = false := by
  obtain ⟨first, more, rfl, solid, -⟩ := opens
  simpa using solid

/-- The start of a line at a level. -/
def margin (width level : Nat) : List Char := '\n' :: List.replicate (width * level) ' '

theorem isSpace_of_mem_margin {character : Char} (member : character ∈ margin width level) :
    Place.isSpace character = true := by
  rcases List.mem_cons.mp member with rfl | blank
  · rfl
  · rw [List.eq_of_mem_replicate blank]
    rfl

theorem separated_margin (width level : Nat) (rest : List Char) : Separated (margin width level ++ rest) := by
  rintro character ⟨⟩
  exact .inr rfl

theorem separated_comma (rest : List Char) : Separated (',' :: rest) := by
  rintro character ⟨⟩
  exact .inl rfl

/-- The parts of a list or object, each on a line of its own. -/
def onLines (width level : Nat) (parts : List (List Char)) : List Char :=
  (',' :: margin width level).intercalate parts

theorem onLines_singleton (part : List Char) : onLines width level [part] = part := by
  simp [onLines, List.intercalate]

theorem onLines_cons (first second : List Char) (parts : List (List Char)) :
    onLines width level (first :: second :: parts) =
      first ++ ',' :: margin width level ++ onLines width level (second :: parts) := by
  simp [onLines, List.intercalate]

theorem exists_onLines_eq (width inner outer : Nat) (first : List Char) (parts : List (List Char))
    (rest : List Char) :
    ∃ tail, onLines width inner (first :: parts) ++ (margin width outer ++ rest) = first ++ tail ∧
      Separated tail := by
  cases parts with
  | nil => exact ⟨_, by rw [onLines_singleton], separated_margin width outer rest⟩
  | cons second parts =>
      rw [onLines_cons, List.append_assoc, List.append_assoc]
      exact ⟨_, rfl, separated_comma _⟩

theorem Opens.onLines {first : List Char} (opens : Opens first) (parts : List (List Char)) :
    Opens (onLines width level (first :: parts)) := by
  obtain ⟨character, more, rfl, solid, inside⟩ := opens
  cases parts with
  | nil => exact ⟨character, more, onLines_singleton _, solid, inside⟩
  | cons second parts =>
      rw [onLines_cons, List.cons_append, List.cons_append]
      exact ⟨character, _, rfl, solid, inside⟩

theorem skipSpace_margin {first : Char} (solid : Place.isSpace first = false) (offset : Nat) :
    Place.skipSpace ⟨offset, margin width level ++ first :: rest⟩ =
      ⟨offset + (margin width level).length, first :: rest⟩ :=
  Place.skipSpace_append _ offset (fun _ => isSpace_of_mem_margin) (by rintro _ ⟨⟩; exact solid)

/-- After an item that is read, the next one is read. -/
theorem items_onLines_cons {text : Json → List Char} {first second : Json}
    (reads : ReadsAs reader (text first) first) (opens : Opens (text second))
    (values : List Json) (width inner offset limit : Nat) (rest : List Char) :
    ∃ between, items reader (limit + 1)
        ⟨offset, onLines width inner ((first :: second :: values).map text) ++ rest⟩ =
      (items reader limit ⟨between, onLines width inner ((second :: values).map text) ++ rest⟩).map
        fun found => (first :: found.1, found.2) := by
  have shape : onLines width inner ((first :: second :: values).map text) ++ rest =
      text first ++ (',' :: (margin width inner ++
        (onLines width inner ((second :: values).map text) ++ rest))) := by
    simp [onLines_cons]
  have opensNext : Opens (onLines width inner ((second :: values).map text)) := opens.onLines _
  have next := fun between => Place.skipSpace_append (margin width inner) between
    (fun _ => isSpace_of_mem_margin) (opensNext.stops rest)
  rw [shape]
  generalize onLines width inner ((second :: values).map text) ++ rest = tail at next ⊢
  obtain ⟨between, read⟩ := reads offset (',' :: (margin width inner ++ tail)) (separated_comma _)
  refine ⟨between + 1 + (margin width inner).length, ?_⟩
  rw [items, read]
  simp only [bind, Except.bind, Place.skipSpace_cons (rfl : Place.isSpace ',' = false),
    Place.drop, List.drop_one, List.tail_cons, next]
  cases items reader limit ⟨between + 1 + (margin width inner).length, tail⟩ <;> rfl

theorem items_onLines {text : Json → List Char} (width inner outer offset : Nat) {limit : Nat}
    (rest : List Char) (first : Json) (values : List Json) (enough : values.length < limit)
    (each : ∀ value ∈ first :: values, ReadsAs reader (text value) value ∧ Opens (text value)) :
    ∃ reached, items reader limit ⟨offset, onLines width inner ((first :: values).map text) ++
        (margin width outer ++ ']' :: rest)⟩ = .ok (first :: values, ⟨reached, rest⟩) := by
  obtain ⟨limit, rfl⟩ : ∃ more, limit = more + 1 := ⟨limit - 1, by omega⟩
  obtain ⟨reads, others⟩ := List.forall_mem_cons.mp each
  induction values generalizing first limit offset with
  | nil =>
      obtain ⟨reached, read⟩ := reads.1 offset (margin width outer ++ ']' :: rest)
        (separated_margin width outer _)
      refine ⟨reached + (margin width outer).length + 1, ?_⟩
      rw [List.map_singleton, onLines_singleton, items, read]
      simp only [bind, Except.bind, skipSpace_margin (rfl : Place.isSpace ']' = false)]
      rfl
  | cons second values ih =>
      obtain ⟨readsNext, othersNext⟩ := List.forall_mem_cons.mp others
      obtain ⟨limit, rfl⟩ : ∃ more, limit = more + 1 :=
        ⟨limit - 1, by rw [List.length_cons] at enough; omega⟩
      obtain ⟨between, step⟩ := items_onLines_cons reads.1 readsNext.2 values width inner offset
        (limit + 1) (margin width outer ++ ']' :: rest)
      obtain ⟨reached, read⟩ := ih between second others limit
        (by rw [List.length_cons] at enough; omega) readsNext othersNext
      exact ⟨reached, by rw [step, read]; rfl⟩

/-- An item that is refused refuses the list. -/
theorem items_refused {text : Json → List Char} {kind : FaultKind} {before after : List Json}
    {item : Json} (width inner outer offset : Nat) {limit : Nat} (rest : List Char)
    (enough : before.length < limit)
    (each : ∀ value ∈ before, ReadsAs reader (text value) value ∧ Opens (text value))
    (opens : Opens (text item)) (refused : Refused reader (text item) kind) :
    ∃ place, items reader limit ⟨offset, onLines width inner ((before ++ item :: after).map text) ++
        (margin width outer ++ rest)⟩ = .error ⟨kind, place⟩ := by
  obtain ⟨limit, rfl⟩ : ∃ more, limit = more + 1 := ⟨limit - 1, by omega⟩
  induction before generalizing limit offset with
  | nil =>
      obtain ⟨tail, shape, separated⟩ :=
        exists_onLines_eq width inner outer (text item) (after.map text) rest
      obtain ⟨place, failed⟩ := refused offset tail separated
      refine ⟨place, ?_⟩
      rw [List.nil_append, List.map_cons, shape, items, failed]
      rfl
  | cons first before ih =>
      obtain ⟨reads, others⟩ := List.forall_mem_cons.mp each
      obtain ⟨limit, rfl⟩ : ∃ more, limit = more + 1 :=
        ⟨limit - 1, by rw [List.length_cons] at enough; omega⟩
      obtain ⟨second, values, shape, opensNext⟩ : ∃ second values,
          before ++ item :: after = second :: values ∧ Opens (text second) := by
        cases before with
        | nil => exact ⟨item, after, rfl, opens⟩
        | cons second before => exact ⟨second, _, rfl, (others second (by simp)).2⟩
      obtain ⟨between, step⟩ := items_onLines_cons reads.1 opensNext values width inner offset
        (limit + 1) (margin width outer ++ rest)
      obtain ⟨place, failed⟩ := ih between others limit
        (by rw [List.length_cons] at enough; omega)
      refine ⟨place, ?_⟩
      rw [shape] at failed
      rw [List.cons_append, shape, step, failed]
      rfl

/-- The text of an entry, from the text of its value. -/
def entryText (text : Json → List Char) (entry : String × Json) : List Char :=
  (quote entry.1).toList ++ ':' :: ' ' :: text entry.2

theorem opens_entryText (text : Json → List Char) (entry : String × Json) :
    Opens (entryText text entry) := by
  rw [entryText, toList_quote]
  exact ⟨'"', _, rfl, rfl, by decide⟩

/-- Behind the name of an entry its value is read, and then white space. -/
theorem entry_entryText {text : Json → List Char} {pair : String × Json} (opens : Opens (text pair.2))
    (offset : Nat) (tail : List Char) :
    ∃ start, entry reader ⟨offset, entryText text pair ++ tail⟩ =
      (reader ⟨start, text pair.2 ++ tail⟩).map fun found => (pair.1, found.1, found.2.skipSpace) := by
  obtain ⟨named, readName⟩ := quotedText_quote pair.1 offset (':' :: ' ' :: (text pair.2 ++ tail))
  have gap := Place.skipSpace_append [' '] (named + 1) (by simp [Place.isSpace]) (opens.stops tail)
  have whole : entryText text pair ++ tail =
      (quote pair.1).toList ++ ':' :: ' ' :: (text pair.2 ++ tail) := by
    simp [entryText]
  refine ⟨named + 1 + [' '].length, ?_⟩
  rw [toList_quote] at readName
  rw [whole, toList_quote, entry, readName]
  simp only [List.cons_append, bind, Except.bind, Place.drop, List.drop_one, List.tail_cons,
    Place.skipSpace_cons (rfl : Place.isSpace ':' = false)]
  rw [show ' ' :: (text pair.2 ++ tail) = [' '] ++ (text pair.2 ++ tail) from rfl, gap]
  cases reader ⟨named + 1 + [' '].length, text pair.2 ++ tail⟩ <;> rfl

theorem entry_reads {text : Json → List Char} {pair : String × Json}
    (reads : ReadsAs reader (text pair.2) pair.2) (opens : Opens (text pair.2)) (offset : Nat)
    (blanks : List Char) {next : Char}
    (blank : ∀ character ∈ blanks, Place.isSpace character = true)
    (solid : Place.isSpace next = false) (separated : Separated (blanks ++ next :: rest)) :
    ∃ reached, entry reader ⟨offset, entryText text pair ++ (blanks ++ next :: rest)⟩ =
      .ok (pair.1, pair.2, ⟨reached, next :: rest⟩) := by
  obtain ⟨start, behindName⟩ := entry_entryText opens offset (blanks ++ next :: rest)
  obtain ⟨valued, read⟩ := reads start _ separated
  refine ⟨valued + blanks.length, ?_⟩
  rw [behindName, read, Except.map, Place.skipSpace_append blanks valued blank]
  rintro _ ⟨⟩
  exact solid

theorem entry_refused {text : Json → List Char} {pair : String × Json} {kind : FaultKind}
    (refused : Refused reader (text pair.2) kind) (opens : Opens (text pair.2)) (offset : Nat)
    {tail : List Char} (separated : Separated tail) :
    ∃ place, entry reader ⟨offset, entryText text pair ++ tail⟩ = .error ⟨kind, place⟩ := by
  obtain ⟨start, behindName⟩ := entry_entryText opens offset tail
  obtain ⟨place, failed⟩ := refused start tail separated
  exact ⟨place, by rw [behindName, failed, Except.map]⟩

theorem entries_onLines_cons {text : Json → List Char} {first : String × Json}
    (reads : ReadsAs reader (text first.2) first.2) (opens : Opens (text first.2))
    (second : String × Json) (pairs : List (String × Json)) (width inner offset limit : Nat)
    (rest : List Char) :
    ∃ between, entries reader (limit + 1)
        ⟨offset, onLines width inner ((first :: second :: pairs).map (entryText text)) ++ rest⟩ =
      (entries reader limit
        ⟨between, onLines width inner ((second :: pairs).map (entryText text)) ++ rest⟩).map
        fun found => (first :: found.1, found.2) := by
  have shape : onLines width inner ((first :: second :: pairs).map (entryText text)) ++ rest =
      entryText text first ++ (',' :: (margin width inner ++
        (onLines width inner ((second :: pairs).map (entryText text)) ++ rest))) := by
    simp [onLines_cons]
  have opensNext : Opens (onLines width inner ((second :: pairs).map (entryText text))) :=
    (opens_entryText text second).onLines _
  have next := fun between => Place.skipSpace_append (margin width inner) between
    (fun _ => isSpace_of_mem_margin) (opensNext.stops rest)
  rw [shape]
  generalize onLines width inner ((second :: pairs).map (entryText text)) ++ rest = tail at next ⊢
  obtain ⟨between, read⟩ := entry_reads reads opens offset [] (by simp)
    (rfl : Place.isSpace ',' = false) (separated_comma (margin width inner ++ tail))
  refine ⟨between + 1 + (margin width inner).length, ?_⟩
  rw [List.nil_append] at read
  rw [entries, read]
  simp only [bind, Except.bind, Place.drop, List.drop_one, List.tail_cons, next]
  cases entries reader limit ⟨between + 1 + (margin width inner).length, tail⟩ <;> rfl

theorem entries_onLines {text : Json → List Char} (width inner outer offset : Nat) {limit : Nat}
    (rest : List Char) (first : String × Json) (pairs : List (String × Json))
    (enough : pairs.length < limit)
    (each : ∀ pair ∈ first :: pairs,
      ReadsAs reader (text pair.2) pair.2 ∧ Opens (text pair.2)) :
    ∃ reached, entries reader limit
        ⟨offset, onLines width inner ((first :: pairs).map (entryText text)) ++
          (margin width outer ++ '\x7d' :: rest)⟩ = .ok (first :: pairs, ⟨reached, rest⟩) := by
  obtain ⟨limit, rfl⟩ : ∃ more, limit = more + 1 := ⟨limit - 1, by omega⟩
  obtain ⟨⟨reads, opens⟩, others⟩ := List.forall_mem_cons.mp each
  induction pairs generalizing first limit offset with
  | nil =>
      obtain ⟨reached, read⟩ := entry_reads reads opens offset _
        (fun _ => isSpace_of_mem_margin) (rfl : Place.isSpace '\x7d' = false)
        (separated_margin width outer ('\x7d' :: rest))
      refine ⟨reached + 1, ?_⟩
      rw [List.map_singleton, onLines_singleton, entries, read]
      rfl
  | cons second pairs ih =>
      obtain ⟨⟨readsNext, opensNext⟩, othersNext⟩ := List.forall_mem_cons.mp others
      obtain ⟨limit, rfl⟩ : ∃ more, limit = more + 1 :=
        ⟨limit - 1, by rw [List.length_cons] at enough; omega⟩
      obtain ⟨between, step⟩ := entries_onLines_cons reads opens second pairs width inner offset
        (limit + 1) (margin width outer ++ '\x7d' :: rest)
      obtain ⟨reached, read⟩ := ih between second others limit
        (by rw [List.length_cons] at enough; omega) othersNext readsNext opensNext
      exact ⟨reached, by rw [step, read]; rfl⟩

theorem entries_refused {text : Json → List Char} {kind : FaultKind}
    {before after : List (String × Json)} {pair : String × Json}
    (width inner outer offset : Nat) {limit : Nat} (rest : List Char)
    (enough : before.length < limit)
    (each : ∀ pair ∈ before, ReadsAs reader (text pair.2) pair.2 ∧ Opens (text pair.2))
    (opens : Opens (text pair.2)) (refused : Refused reader (text pair.2) kind) :
    ∃ place, entries reader limit ⟨offset, onLines width inner ((before ++ pair :: after).map
        (entryText text)) ++ (margin width outer ++ rest)⟩ = .error ⟨kind, place⟩ := by
  obtain ⟨limit, rfl⟩ : ∃ more, limit = more + 1 := ⟨limit - 1, by omega⟩
  induction before generalizing limit offset with
  | nil =>
      obtain ⟨tail, shape, separated⟩ := exists_onLines_eq width inner outer (entryText text pair)
        (after.map (entryText text)) rest
      obtain ⟨place, failed⟩ := entry_refused refused opens offset separated
      refine ⟨place, ?_⟩
      rw [List.nil_append, List.map_cons, shape, entries, failed]
      rfl
  | cons first before ih =>
      obtain ⟨⟨readsFirst, opensFirst⟩, others⟩ := List.forall_mem_cons.mp each
      obtain ⟨limit, rfl⟩ : ∃ more, limit = more + 1 :=
        ⟨limit - 1, by rw [List.length_cons] at enough; omega⟩
      obtain ⟨second, pairs, shape⟩ := List.exists_cons_of_ne_nil
        (show before ++ pair :: after ≠ [] by simp)
      obtain ⟨between, step⟩ := entries_onLines_cons readsFirst opensFirst second pairs width inner
        offset (limit + 1) (margin width outer ++ rest)
      obtain ⟨place, failed⟩ := ih between others limit
        (by rw [List.length_cons] at enough; omega)
      refine ⟨place, ?_⟩
      rw [shape] at failed
      rw [List.cons_append, shape, step, failed]
      rfl

/-- The text of a value on many lines. -/
def written (width level : Nat) (value : Json) : List Char :=
  (writeAt (some width) level value).toList

theorem toList_pushn (text : String) (character : Char) (count : Nat) :
    (text.pushn character count).toList = text.toList ++ List.replicate count character := by
  induction count with
  | zero =>
      rw [String.pushn_eq_repeat_push, Nat.repeat]
      simp
  | succ count ih =>
      rw [String.pushn_eq_repeat_push] at ih ⊢
      rw [Nat.repeat, String.toList_push, ih, List.replicate_succ', List.append_assoc]

theorem toList_lines (opening closing : String) (parts : List String) :
    (lines (some width) level opening closing parts).toList = opening.toList ++
      (margin width (level + 1) ++ (onLines width (level + 1) (parts.map String.toList) ++
        (margin width level ++ closing.toList))) := by
  simp [lines, margin, onLines, toList_pushn, String.toList_intercalate]

section Writer

attribute [local simp] writeAt

theorem writeItems_eq_map (indent : Option Nat) (values : List Json) :
    writeItems indent level values = values.map (writeAt indent level) := by
  induction values with
  | nil => rfl
  | cons value values ih => rw [writeItems, ih, List.map_cons]

theorem writeEntries_eq_map (indent : Option Nat) (pairs : List (String × Json)) :
    writeEntries indent level pairs = pairs.map (writeEntry indent level) := by
  induction pairs with
  | nil => rfl
  | cons pair pairs ih => rw [writeEntries, ih, List.map_cons]

theorem written_list {values : List Json} (filled : values ≠ []) :
    written width level (.list values) = '[' :: (margin width (level + 1) ++
      (onLines width (level + 1) (values.map (written width (level + 1))) ++
        (margin width level ++ [']']))) := by
  obtain ⟨first, others, rfl⟩ := List.exists_cons_of_ne_nil filled
  rw [written, writeAt, toList_lines, writeItems_eq_map, List.map_map]
  rfl

theorem written_object {pairs : List (String × Json)} (filled : pairs ≠ []) :
    written width level (.object pairs) = '\x7b' :: (margin width (level + 1) ++
      (onLines width (level + 1) (pairs.map (entryText (written width (level + 1)))) ++
        (margin width level ++ ['\x7d']))) := by
  obtain ⟨first, others, rfl⟩ := List.exists_cons_of_ne_nil filled
  have same : String.toList ∘ writeEntry (some width) (level + 1) =
      entryText (written width (level + 1)) := by
    funext ⟨name, value⟩
    simp [writeEntry, entryText, written, colon]
  rw [written, writeAt, toList_lines, writeEntries_eq_map, List.map_map, same]
  rfl

theorem written_int (value : Int) :
    written width level (.int value) =
      (if value < 0 then ['-'] else []) ++ Nat.toDigits 10 value.natAbs := by
  rw [written, writeAt, Int.toString_eq_repr, Int.repr_eq_if]
  split
  · rename_i positive
    have size : value.toNat = value.natAbs := by omega
    simp [Int.not_lt.mpr positive, size]
  · rename_i negative
    have size : (-value).toNat = value.natAbs := by omega
    simp [Int.not_le.mp negative, size]

@[simp] theorem written_null : written width level .null = ['n', 'u', 'l', 'l'] := by
  simp [written]

@[simp] theorem written_true : written width level (.bool true) = ['t', 'r', 'u', 'e'] := by
  simp [written]

@[simp] theorem written_false : written width level (.bool false) = ['f', 'a', 'l', 's', 'e'] := by
  simp [written]

@[simp] theorem written_text (value : String) :
    written width level (.text value) = (quote value).toList := by
  simp [written]

@[simp] theorem written_list_nil : written width level (.list []) = ['[', ']'] := by
  simp [written]

@[simp] theorem written_object_nil : written width level (.object []) = ['\x7b', '\x7d'] := by
  simp [written]

end Writer

theorem length_le_onLines {Value : Type} (text : Value → List Char) (width level : Nat)
    (values : List Value) :
    values.length ≤ (onLines width level (values.map text)).length + 1 ∧
      ∀ value ∈ values, (text value).length ≤ (onLines width level (values.map text)).length := by
  induction values with
  | nil => simp
  | cons first values ih =>
      cases values with
      | nil => simp [onLines_singleton]
      | cons second values =>
          obtain ⟨count, each⟩ := ih
          rw [List.map_cons, List.map_cons, onLines_cons, ← List.map_cons]
          simp only [List.length_append, List.length_cons] at count ⊢
          refine ⟨by omega, fun value member => ?_⟩
          rcases List.mem_cons.mp member with rfl | later
          · omega
          · have := each value later
            omega

theorem length_le_entryText (text : Json → List Char) (pair : String × Json) :
    (text pair.2).length ≤ (entryText text pair).length := by
  simp only [entryText, List.length_append, List.length_cons]
  omega

theorem isSpace_of_isDigit {character : Char} (isDigit : character.isDigit = true) :
    Place.isSpace character = false := by
  have apart : ∀ blank, blank.isDigit = false → character ≠ blank := by
    rintro blank other rfl
    rw [isDigit] at other
    cases other
  simp [Place.isSpace, apart]

theorem opens_int (width level : Nat) (value : Int) : Opens (written width level (.int value)) := by
  obtain ⟨digit, more, shape, isDigit⟩ := toDigits_eq_cons value.natAbs
  rw [written_int, shape]
  split
  · exact ⟨'-', _, rfl, rfl, by decide⟩
  · refine ⟨digit, more, rfl, isSpace_of_isDigit isDigit, ?_, ?_⟩
    all_goals
      rintro rfl
      cases isDigit

theorem Storable.opens {allowed : Int → Prop} {value : Json} (storable : Storable allowed value) (width level : Nat) :
    Opens (written width level value) := by
  cases storable with
  | null => exact ⟨'n', _, written_null, rfl, by decide⟩
  | bool value =>
      cases value with
      | true => exact ⟨'t', _, written_true, rfl, by decide⟩
      | false => exact ⟨'f', _, written_false, rfl, by decide⟩
  | int fits => exact opens_int width level _
  | text value =>
      exact ⟨'"', _, (written_text value).trans (toList_quote value), rfl, by decide⟩
  | @list values each =>
      cases values with
      | nil => exact ⟨'[', _, written_list_nil, rfl, by decide⟩
      | cons first values => exact ⟨'[', _, written_list (by simp), rfl, by decide⟩
  | @object pairs distinct each =>
      cases pairs with
      | nil => exact ⟨'\x7b', _, written_object_nil, rfl, by decide⟩
      | cons first pairs => exact ⟨'\x7b', _, written_object (by simp), rfl, by decide⟩

theorem wordAhead_digit {digit : Char} (isDigit : digit.isDigit = true) (rest : List Char) :
    wordAhead (digit :: rest) = none ∧ wordAhead ('-' :: digit :: rest) = none := by
  have apart : ∀ letter, letter.isDigit = false → letter ≠ digit := by
    rintro letter other rfl
    rw [isDigit] at other
    cases other
  simp [wordAhead, words, apart]

theorem valueAt_eq_number {first : Char} {rest : List Char} {limit depth offset : Nat}
    (plain : ¬ (first = '"' ∨ first = '\x7b' ∨ first = '['))
    (noWord : wordAhead (first :: rest) = none) :
    valueAt limit (depth + 1) ⟨offset, first :: rest⟩ = number ⟨offset, first :: rest⟩ := by
  unfold valueAt
  split
  · simp_all
  · simp_all
  · simp_all
  · rw [noWord]

theorem valueAt_int (value : Int) (limit depth offset : Nat) {rest : List Char}
    (separated : Separated rest) :
    ∃ reached, valueAt limit (depth + 1) ⟨offset, written width level (.int value) ++ rest⟩ =
      if digitLimit < (digitsOf value).length then
        .error ⟨.tooManyDigits (digitsOf value).length, offset⟩
      else .ok (.int value, ⟨reached, rest⟩) := by
  obtain ⟨reached, read⟩ := number_eq value.natAbs (decide (value < 0)) separated offset
  refine ⟨reached, ?_⟩
  obtain ⟨digit, more, shape, isDigit⟩ := toDigits_eq_cons value.natAbs
  obtain ⟨noWord, noSigned⟩ := wordAhead_digit isDigit (more ++ rest)
  rw [written_int, digitsOf]
  by_cases negative : value < 0
  · have sign : -(value.natAbs : Int) = value := by omega
    simp only [negative, decide_true, if_true, sign, shape, List.cons_append,
      List.nil_append] at read ⊢
    rw [valueAt_eq_number (by decide) noSigned, read]
  · have sign : (value.natAbs : Int) = value := by omega
    simp only [negative, decide_false, Bool.false_eq_true, if_false, sign, shape,
      List.cons_append, List.nil_append] at read ⊢
    rw [valueAt_eq_number (by rintro (rfl | rfl | rfl) <;> cases isDigit) noWord, read]

theorem readsAs_int {value : Int} (short : Short value) (limit depth : Nat) :
    ReadsAs (valueAt limit (depth + 1)) (written width level (.int value)) (.int value) := by
  intro offset rest separated
  obtain ⟨reached, read⟩ := valueAt_int value limit depth offset separated
  rw [if_neg (Nat.not_lt.mpr short)] at read
  exact ⟨reached, read⟩

theorem refused_int {value : Int} (long : ¬ Short value) (limit depth : Nat) :
    Refused (valueAt limit (depth + 1)) (written width level (.int value))
      (.tooManyDigits (digitsOf value).length) := by
  intro offset rest separated
  obtain ⟨reached, read⟩ := valueAt_int value limit depth offset separated
  rw [if_pos (Nat.lt_of_not_le long)] at read
  exact ⟨offset, read⟩

theorem readsAs_text (value : String) (limit depth : Nat) :
    ReadsAs (valueAt limit (depth + 1)) (written width level (.text value)) (.text value) := by
  intro offset rest separated
  obtain ⟨reached, read⟩ := quotedText_quote value offset rest
  refine ⟨reached, ?_⟩
  rw [toList_quote] at read
  rw [written_text, toList_quote, valueAt, read]
  rfl

theorem valueAt_list {values : List Json} (filled : values ≠ [])
    (width level limit depth offset : Nat) (rest : List Char)
    (opens : Opens (onLines width (level + 1) (values.map (written width (level + 1))))) :
    ∃ inner, valueAt limit (depth + 1) ⟨offset, written width level (.list values) ++ rest⟩ =
      (items (valueAt limit depth) limit ⟨inner, onLines width (level + 1)
        (values.map (written width (level + 1))) ++ (margin width level ++ ']' :: rest)⟩).map
        fun found => (.list found.1, found.2) := by
  have skipped := Place.skipSpace_append (margin width (level + 1)) (offset + 1)
    (fun _ => isSpace_of_mem_margin) (opens.stops (margin width level ++ ']' :: rest))
  refine ⟨offset + 1 + (margin width (level + 1)).length, ?_⟩
  rw [written_list filled]
  obtain ⟨character, more, shape, -, inside, -⟩ := opens
  simp only [List.cons_append, List.append_assoc, List.nil_append, valueAt, Place.drop,
    List.drop_one, List.tail_cons, skipped]
  simp only [shape, List.cons_append]
  split
  · rename_i closed
    cases closed
    exact absurd rfl inside
  · simp only [bind, Except.bind]
    split <;> rename_i found <;> rw [found] <;> rfl

theorem valueAt_object {pairs : List (String × Json)} (filled : pairs ≠ [])
    (width level limit depth offset : Nat) (rest : List Char) :
    ∃ inner, valueAt limit (depth + 1) ⟨offset, written width level (.object pairs) ++ rest⟩ =
      (entries (valueAt limit depth) limit ⟨inner, onLines width (level + 1)
        (pairs.map (entryText (written width (level + 1)))) ++
          (margin width level ++ '\x7d' :: rest)⟩).map
        fun found => (.object (Entries.ofList found.1), found.2) := by
  obtain ⟨first, others, rfl⟩ := List.exists_cons_of_ne_nil filled
  have opens : Opens (onLines width (level + 1) ((first :: others).map
      (entryText (written width (level + 1))))) := (opens_entryText _ first).onLines _
  have skipped := Place.skipSpace_append (margin width (level + 1)) (offset + 1)
    (fun _ => isSpace_of_mem_margin) (opens.stops (margin width level ++ '\x7d' :: rest))
  refine ⟨offset + 1 + (margin width (level + 1)).length, ?_⟩
  rw [written_object filled]
  obtain ⟨character, more, shape, -, -, inside⟩ := opens
  simp only [List.cons_append, List.append_assoc, List.nil_append, valueAt, Place.drop,
    List.drop_one, List.tail_cons, skipped]
  simp only [shape, List.cons_append]
  split
  · rename_i closed
    cases closed
    exact absurd rfl inside
  · simp only [bind, Except.bind]
    split <;> rename_i found <;> rw [found] <;> rfl

theorem Opens.exists_succ {text : List Char} (opens : Opens text) {depth : Nat}
    (shallow : text.length ≤ depth) : ∃ less, depth = less + 1 := by
  obtain ⟨first, more, rfl, -⟩ := opens
  rw [List.length_cons] at shallow
  exact ⟨depth - 1, by omega⟩

/-- What is written for a value is read as the value. -/
theorem Storable.reads {value : Json} (storable : Storable Short value) (width level limit depth : Nat)
    (shallow : (written width level value).length ≤ depth)
    (few : (written width level value).length ≤ limit) :
    ReadsAs (valueAt limit depth) (written width level value) value := by
  have opened := storable.opens width level
  obtain ⟨depth, rfl⟩ := opened.exists_succ shallow
  induction storable generalizing level depth with
  | null =>
      rw [written_null]
      exact fun offset rest _ => ⟨offset + 4, rfl⟩
  | bool value =>
      cases value with
      | true =>
          rw [written_true]
          exact fun offset rest _ => ⟨offset + 4, rfl⟩
      | false =>
          rw [written_false]
          exact fun offset rest _ => ⟨offset + 5, rfl⟩
  | int short => exact readsAs_int short limit depth
  | text value => exact readsAs_text value limit depth
  | @list values each ih =>
      cases values with
      | nil =>
          rw [written_list_nil]
          refine fun offset rest _ => ⟨offset + 2, ?_⟩
          simp only [List.cons_append, List.nil_append, valueAt, Place.drop, List.drop_one,
            List.tail_cons, Place.skipSpace_cons (rfl : Place.isSpace ']' = false)]
          rfl
      | cons first values =>
          obtain ⟨count, longest⟩ :=
            length_le_onLines (written width (level + 1)) width (level + 1) (first :: values)
          rw [written_list (by simp)] at shallow few
          simp only [List.length_cons, List.length_append] at shallow few count
          have parts : ∀ value ∈ first :: values,
              ReadsAs (valueAt limit depth) (written width (level + 1) value) value ∧
                Opens (written width (level + 1) value) := by
            intro value member
            have opens := (each value member).opens width (level + 1)
            have short := longest value member
            obtain ⟨less, rfl⟩ := opens.exists_succ (show _ ≤ depth by omega)
            exact ⟨ih value member (level + 1) (by omega) opens less (by omega), opens⟩
          intro offset rest separated
          obtain ⟨inner, opened⟩ := valueAt_list (List.cons_ne_nil first values) width level
            limit depth offset rest ((parts first (by simp)).2.onLines _)
          obtain ⟨reached, read⟩ :=
            items_onLines width (level + 1) level inner rest first values
              (show _ < limit by omega) parts
          exact ⟨reached, by rw [opened, read]; rfl⟩
  | @object pairs distinct each ih =>
      cases pairs with
      | nil =>
          rw [written_object_nil]
          refine fun offset rest _ => ⟨offset + 2, ?_⟩
          simp only [List.cons_append, List.nil_append, valueAt, Place.drop, List.drop_one,
            List.tail_cons, Place.skipSpace_cons (rfl : Place.isSpace '\x7d' = false)]
          rfl
      | cons first pairs =>
          obtain ⟨count, longest⟩ := length_le_onLines (entryText (written width (level + 1)))
            width (level + 1) (first :: pairs)
          rw [written_object (by simp)] at shallow few
          simp only [List.length_cons, List.length_append] at shallow few count
          have parts : ∀ pair ∈ first :: pairs,
              ReadsAs (valueAt limit depth) (written width (level + 1) pair.2) pair.2 ∧
                Opens (written width (level + 1) pair.2) := by
            intro pair member
            have opens := (each pair member).opens width (level + 1)
            have short := Nat.le_trans (length_le_entryText (written width (level + 1)) pair)
              (longest pair member)
            obtain ⟨less, rfl⟩ := opens.exists_succ (show _ ≤ depth by omega)
            exact ⟨ih pair member (level + 1) (by omega) opens less (by omega), opens⟩
          intro offset rest separated
          obtain ⟨inner, opened⟩ := valueAt_object (List.cons_ne_nil first pairs) width level
            limit depth offset rest
          obtain ⟨reached, read⟩ :=
            entries_onLines width (level + 1) level inner rest first pairs
              (show _ < limit by omega) parts
          refine ⟨reached, ?_⟩
          rw [opened, read, Except.map, Entries.ofList_eq_self distinct]

theorem Overlong.opens {value : Json} {count : Nat} (overlong : Overlong value count)
    (width level : Nat) : Opens (written width level value) := by
  cases overlong with
  | int long => exact opens_int width level _
  | list short here => exact ⟨'[', _, written_list (by simp), rfl, by decide⟩
  | object short here => exact ⟨'\x7b', _, written_object (by simp), rfl, by decide⟩

/-- A value with a whole number that is too long is refused at the first of them. -/
theorem Overlong.refused {value : Json} {count : Nat} (overlong : Overlong value count)
    (width level limit depth : Nat) (shallow : (written width level value).length ≤ depth)
    (few : (written width level value).length ≤ limit) :
    Refused (valueAt limit depth) (written width level value) (.tooManyDigits count) := by
  obtain ⟨depth, rfl⟩ := (overlong.opens width level).exists_succ shallow
  induction overlong generalizing level depth with
  | int long => exact refused_int long limit depth
  | @list before after item count short here ih =>
      obtain ⟨size, longest⟩ :=
        length_le_onLines (written width (level + 1)) width (level + 1) (before ++ item :: after)
      rw [written_list (by simp)] at shallow few
      simp only [List.length_cons, List.length_append] at shallow few size
      have parts : ∀ value ∈ before,
          ReadsAs (valueAt limit depth) (written width (level + 1) value) value ∧
            Opens (written width (level + 1) value) := by
        intro value member
        have within := longest value (List.mem_append_left _ member)
        exact ⟨(short value member).reads _ _ _ _ (by omega) (by omega),
          (short value member).opens _ _⟩
      have opens := here.opens width (level + 1)
      have within := longest item (by simp)
      obtain ⟨less, rfl⟩ := opens.exists_succ (show _ ≤ depth by omega)
      have refused := ih (level + 1) (by omega) less (by omega)
      have opensAll : Opens (onLines width (level + 1)
          ((before ++ item :: after).map (written width (level + 1)))) := by
        cases before with
        | nil => exact opens.onLines _
        | cons first before => exact (parts first (by simp)).2.onLines _
      intro offset rest separated
      obtain ⟨inner, opened⟩ := valueAt_list (show before ++ item :: after ≠ [] by simp) width
        level limit (less + 1) offset rest opensAll
      obtain ⟨place, failed⟩ := items_refused width (level + 1) level inner (']' :: rest)
        (show _ < limit by omega) parts opens refused
      exact ⟨place, by rw [opened, failed]; rfl⟩
  | @object before after pair count short here ih =>
      obtain ⟨size, longest⟩ := length_le_onLines (entryText (written width (level + 1))) width
        (level + 1) (before ++ pair :: after)
      rw [written_object (by simp)] at shallow few
      simp only [List.length_cons, List.length_append] at shallow few size
      have parts : ∀ pair ∈ before,
          ReadsAs (valueAt limit depth) (written width (level + 1) pair.2) pair.2 ∧
            Opens (written width (level + 1) pair.2) := by
        intro pair member
        have within := Nat.le_trans (length_le_entryText (written width (level + 1)) pair)
          (longest pair (List.mem_append_left _ member))
        exact ⟨(short pair member).reads _ _ _ _ (by omega) (by omega),
          (short pair member).opens _ _⟩
      have opens := here.opens width (level + 1)
      have within := Nat.le_trans (length_le_entryText (written width (level + 1)) pair)
        (longest pair (by simp))
      obtain ⟨less, rfl⟩ := opens.exists_succ (show _ ≤ depth by omega)
      have refused := ih (level + 1) (by omega) less (by omega)
      intro offset rest separated
      obtain ⟨inner, opened⟩ := valueAt_object (show before ++ pair :: after ≠ [] by simp)
        width level limit (less + 1) offset rest
      obtain ⟨place, failed⟩ := entries_refused width (level + 1) level inner ('\x7d' :: rest)
        (show _ < limit by omega) parts opens refused
      exact ⟨place, by rw [opened, failed]; rfl⟩

/-! The characters that are written -/

/-- Line feeds and the characters of the ASCII range that show. -/
def Printed (character : Char) : Prop :=
  character = '\n' ∨ 0x20 ≤ character.toNat ∧ character.toNat ≤ 0x7E

instance (character : Char) : Decidable (Printed character) :=
  inferInstanceAs (Decidable (_ ∨ _))

/-- A list of characters is gone through one by one. -/
theorem printed_of_all {characters : List Char}
    (checked : (characters.all fun character => decide (Printed character)) = true) :
    ∀ character ∈ characters, Printed character := by
  intro character member
  exact of_decide_eq_true (List.all_eq_true.mp checked character member)

theorem printed_hexDigit : ∀ digit < 16, Printed (hexDigit digit) := by decide

theorem printed_hexDigits {digits value : Nat} {character : Char}
    (member : character ∈ hexDigits digits value) : Printed character := by
  induction digits generalizing value with
  | zero => cases member
  | succ digits ih =>
      rw [hexDigits, List.mem_append, List.mem_singleton] at member
      rcases member with earlier | rfl
      · exact ih earlier
      · exact printed_hexDigit _ (Nat.mod_lt _ (by decide))

theorem printed_codeEscape {code : Nat} {character : Char} (member : character ∈ codeEscape code) :
    Printed character := by
  rw [codeEscape, List.mem_cons, List.mem_cons] at member
  rcases member with rfl | rfl | digit
  · decide
  · decide
  · exact printed_hexDigits digit

theorem printed_escaped {original character : Char} (member : character ∈ escaped original) :
    Printed character := by
  have written := escaping_escaped original
  generalize escaped original = text at written member
  cases written with
  | short known =>
      have letters : (shortEscapes.all fun entry => decide (Printed entry.2)) = true := by decide
      rcases List.mem_cons.mp member with rfl | last
      · decide
      · cases List.mem_singleton.mp last
        exact of_decide_eq_true (List.all_eq_true.mp letters _ known)
  | itself quote backslash printed =>
      cases List.mem_singleton.mp member
      exact .inr printed
  | code small => exact printed_codeEscape member
  | pair large => exact (List.mem_append.mp member).elim printed_codeEscape printed_codeEscape

theorem printed_quote {text : String} {character : Char} (member : character ∈ (quote text).toList) :
    Printed character := by
  rw [toList_quote, List.mem_cons, List.mem_append, List.mem_singleton] at member
  rcases member with rfl | inside | rfl
  · decide
  · obtain ⟨original, -, here⟩ := List.mem_flatMap.mp inside
    exact printed_escaped here
  · decide

theorem printed_margin {character : Char} (member : character ∈ margin width level) :
    Printed character := by
  rcases List.mem_cons.mp member with rfl | blank
  · decide
  · rw [List.eq_of_mem_replicate blank]
    decide

theorem printed_onLines {parts : List (List Char)}
    (each : ∀ part ∈ parts, ∀ character ∈ part, Printed character) {character : Char}
    (member : character ∈ onLines width level parts) : Printed character := by
  induction parts with
  | nil => cases member
  | cons first parts ih =>
      cases parts with
      | nil =>
          rw [onLines_singleton] at member
          exact each first (by simp) character member
      | cons second parts =>
          rw [onLines_cons, List.mem_append, List.mem_append, List.mem_cons] at member
          rcases member with (here | rfl | blank) | later
          · exact each first (by simp) character here
          · decide
          · exact printed_margin blank
          · exact ih (fun part among => each part (List.mem_cons_of_mem _ among)) later

theorem printed_bracketed {opening closing : Char} (opens : Printed opening)
    (closes : Printed closing) {parts : List (List Char)}
    (each : ∀ part ∈ parts, ∀ character ∈ part, Printed character) :
    ∀ character ∈ opening :: (margin width (level + 1) ++ (onLines width (level + 1) parts ++
      (margin width level ++ [closing]))), Printed character := by
  intro character member
  simp only [List.mem_cons, List.mem_append, List.not_mem_nil, or_false] at member
  rcases member with rfl | blank | part | blank | rfl
  · exact opens
  · exact printed_margin blank
  · exact printed_onLines each part
  · exact printed_margin blank
  · exact closes

theorem printed_entryText {text : Json → List Char} {pair : String × Json}
    (printed : ∀ character ∈ text pair.2, Printed character) :
    ∀ character ∈ entryText text pair, Printed character := by
  intro character member
  rw [entryText, List.mem_append, List.mem_cons, List.mem_cons] at member
  rcases member with name | rfl | rfl | here
  · exact printed_quote name
  · decide
  · decide
  · exact printed character here

theorem printed_int (value : Int) :
    ∀ character ∈ written width level (.int value), Printed character := by
  intro character member
  rw [written_int, List.mem_append] at member
  rcases member with sign | digit
  · split at sign
    · rw [List.mem_singleton.mp sign]
      decide
    · cases sign
  · have isDigit := Nat.isDigit_of_mem_toDigits (by decide) (by decide) digit
    obtain ⟨least, most⟩ : 48 ≤ character.toNat ∧ character.toNat ≤ 57 := by
      simpa [Char.isDigit, UInt32.le_iff_toNat_le] using isDigit
    exact .inr ⟨by omega, by omega⟩

theorem Storable.printed {allowed : Int → Prop} {value : Json} (storable : Storable allowed value) (width level : Nat) :
    ∀ character ∈ written width level value, Printed character := by
  induction storable generalizing level with
  | null =>
      rw [written_null]
      exact printed_of_all (by decide)
  | bool value =>
      cases value with
      | true =>
          rw [written_true]
          exact printed_of_all (by decide)
      | false =>
          rw [written_false]
          exact printed_of_all (by decide)
  | int short => exact printed_int _
  | text value =>
      rw [written_text]
      exact fun character => printed_quote
  | @list values each ih =>
      cases values with
      | nil =>
          rw [written_list_nil]
          exact printed_of_all (by decide)
      | cons first values =>
          rw [written_list (by simp)]
          refine printed_bracketed (by decide) (by decide) fun part member => ?_
          obtain ⟨value, among, rfl⟩ := List.mem_map.mp member
          exact ih value among (level + 1)
  | @object pairs distinct each ih =>
      cases pairs with
      | nil =>
          rw [written_object_nil]
          exact printed_of_all (by decide)
      | cons first pairs =>
          rw [written_object (by simp)]
          refine printed_bracketed (by decide) (by decide) fun part member => ?_
          obtain ⟨pair, among, rfl⟩ := List.mem_map.mp member
          exact printed_entryText (ih pair among (level + 1))

end Value

end Json

end PhpAudit
