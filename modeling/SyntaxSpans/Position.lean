import SyntaxSpans.Text.Basic

/-!
# Lines and columns

The offsets at which the lines of a text start, and the two translations between an offset and a
line with a column, both counted from zero. Only a line feed ends a line.
-/

namespace SyntaxSpans

/-- The line starts of a text, in ascending order, and its length. -/
structure LineMap where
  starts : List Nat
  size : Nat
deriving DecidableEq, Repr

namespace LineMap

/-- The offsets behind the line feeds of a text that begins at `offset`. -/
def startsFrom (offset : Nat) : Text → List Nat
  | [] => []
  | c :: rest =>
    if c = '\n' then (offset + 1) :: startsFrom (offset + 1) rest else startsFrom (offset + 1) rest

/-- The lines of a text. There is always a first one. -/
def ofText (t : Text) : LineMap := ⟨0 :: startsFrom 0 t, t.length⟩

/-- Where the line with a signed number starts: negative numbers count from the last line. -/
def start? (m : LineMap) (line : Int) : Option Nat :=
  if 0 ≤ line then m.starts[line.toNat]?
  else if 0 ≤ line + m.starts.length then m.starts[(line + m.starts.length).toNat]?
  else none

/-- The offset of a line and a column, if there is such a line; any column will do. -/
def offset? (m : LineMap) (line column : Int) : Option Int :=
  (m.start? line).map fun start => start + column

/-- The number of the line that an offset is on: one less than the lines that start at or before
it. -/
def lineOf (m : LineMap) (offset : Int) : Nat :=
  (m.starts.takeWhile fun (start : Nat) => (start : Int) ≤ offset).length - 1

def location? (m : LineMap) (offset : Int) : Option (Nat × Int) :=
  if 0 ≤ offset ∧ offset ≤ m.size then
    let line := m.lineOf offset
    some (line, offset - (m.starts[line]?).getD 0)
  else none

end LineMap

end SyntaxSpans
