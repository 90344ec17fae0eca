import PhpAudit.Text.Span

/-!
Places by look-up. The index of a text holds where its lines start, in characters and in bytes. The
line of an offset is found by halving, and only the characters between the start of the line and
the offset are counted.
-/

namespace PhpAudit

/-- The number of bytes in the UTF-8 form of a text. -/
def byteSize : List Char → Nat
  | [] => 0
  | character :: rest => character.utf8Size + byteSize rest

/-- The characters from one offset up to another, as far as the text goes. -/
def slice (text : List Char) (first last : Nat) : List Char := (text.take last).drop first

structure LineStart where
  offset : Nat := 0
  position : Nat := 0

structure LineIndex where
  text : List Char
  starts : Array LineStart
  nonempty : 0 < starts.size

namespace LineIndex

/-- The offsets behind the line feeds of a text that starts at an offset. -/
def feedEnds (offset : Nat) : List Char → List Nat
  | [] => []
  | character :: rest =>
      if character = '\n' then (offset + 1) :: feedEnds (offset + 1) rest
      else feedEnds (offset + 1) rest

/-- The line at a start and those at the offsets behind it. Each has the bytes of the line before
it in front. -/
def linesFrom (text : List Char) (start : LineStart) : List Nat → List LineStart
  | [] => [start]
  | offset :: later =>
      start :: linesFrom text
        ⟨offset, start.position + byteSize (slice text start.offset offset)⟩ later

theorem linesFrom_ne_nil (text : List Char) (start : LineStart) (offsets : List Nat) :
    linesFrom text start offsets ≠ [] := by
  cases offsets <;> simp [linesFrom]

def ofText (text : List Char) : LineIndex where
  text
  starts := (linesFrom text {} (feedEnds 0 text)).toArray
  nonempty := List.length_pos_iff.mpr (linesFrom_ne_nil text {} (feedEnds 0 text))

/-- The first line between two numbers that starts behind an offset, or else the second number. -/
def search (starts : Array LineStart) (offset low high : Nat) (bound : high ≤ starts.size) : Nat :=
  if inside : low < high then
    let middle := (low + high) / 2
    have : middle < starts.size := by omega
    if offset < starts[middle].offset then search starts offset low middle (by omega)
    else search starts offset (middle + 1) high bound
  else low
termination_by high - low

theorem search_le (starts : Array LineStart) (offset low high : Nat) (bound : high ≤ starts.size)
    (ordered : low ≤ high) : search starts offset low high bound ≤ high := by
  fun_induction search starts offset low high bound with
  | case1 low high bound inside middle _ before ih =>
      have := ih (by omega)
      omega
  | case2 low high bound inside middle _ behind ih => exact ih (by omega)
  | case3 => exact ordered

/-- The number of lines that start up to an offset. -/
def linesUpTo (index : LineIndex) (offset : Nat) : Nat :=
  search index.starts offset 0 index.starts.size (Nat.le_refl _)

/-- The number of the line around an offset, counted from zero. -/
def lineOf (index : LineIndex) (offset : Nat) : Nat := index.linesUpTo offset - 1

theorem linesUpTo_le (index : LineIndex) (offset : Nat) :
    index.linesUpTo offset ≤ index.starts.size :=
  search_le _ _ _ _ _ (Nat.zero_le _)

theorem lineOf_lt (index : LineIndex) (offset : Nat) : index.lineOf offset < index.starts.size := by
  have found := index.linesUpTo_le offset
  have := index.nonempty
  unfold lineOf
  omega

def span (index : LineIndex) (offset : Nat) : Span :=
  let line := index.lineOf offset
  have : line < index.starts.size := index.lineOf_lt offset
  let start := index.starts[line]
  ⟨line + 1, offset - start.offset + 1,
    start.position + byteSize (slice index.text start.offset offset)⟩

end LineIndex

end PhpAudit
