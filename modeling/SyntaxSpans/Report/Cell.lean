import SyntaxSpans.Text.Blank
import SyntaxSpans.Text.CellWidth

/-!
# Text in a cell of a table

A terminal does not see the controls that it would act on, and tabs become blanks up to the next
multiple of eight. The width of a cell is settled before tabs are replaced and counts every line break
of the Unicode standard. A line that has become too wide is wrapped between words then, and a word that
is too wide by itself is cut short with an ellipsis.
-/

namespace SyntaxSpans.Cell

/-- Bell, backspace, vertical tab, form feed and return. -/
def isTerminalControl (c : Char) : Bool := [7, 8, 11, 12, 13].contains c.toNat

def withoutControls (t : Text) : Text := t.filter fun c => !isTerminalControl c

/-- Line feed, the separators of files, groups and records, next line, and the separators of lines and
paragraphs. -/
def isLineBreak (c : Char) : Bool := [10, 28, 29, 30, 0x85, 0x2028, 0x2029].contains c.toNat

/-- The width that a text asks for: that of its widest line. Tabs do not count. -/
def measured (t : Text) : Nat := ((t.splitOnP isLineBreak).map Text.cellWidth).foldl max 0

/-! ## Tabs -/

def tabSize : Nat := 8

/-- Replaces the tabs between parts of a line, which begin at a position. -/
def expandFrom (position : Nat) : List Text → Text
  | [] => []
  | [last] => last
  | part :: next :: rest =>
    let part := part ++ [' ']
    let position := position + Text.cellWidth part
    let fill := (tabSize - position % tabSize) % tabSize
    part ++ Text.blanks fill ++ expandFrom (position + fill) (next :: rest)

/-- The line with blanks for tabs; a tab is one blank at least. -/
def expandTabs (line : Text) : Text := expandFrom 0 (line.splitOn '\t')

/-- The lines of a text as a terminal shows them when there is room for them. -/
def lines (t : Text) : List Text := ((withoutControls t).splitOn '\n').map expandTabs

/-! ## Wrapping -/

def trimEnd (t : Text) : Text := (t.reverse.dropWhile CharSet.blank.contains).reverse

/-- The words of a line, each with the blanks behind it, the first one also with those in front. The
line `t` begins with what `word` has so far; `isOver` tells that this ends in blanks behind a word. -/
def wordsFrom (word : Text) (isOver : Bool) : Text → List Text
  | [] => [word]
  | c :: rest =>
    if CharSet.blank.contains c then
      wordsFrom (word ++ [c]) (isOver || word.any fun d => !CharSet.blank.contains d) rest
    else if isOver then word :: wordsFrom [c] false rest
    else wordsFrom (word ++ [c]) false rest

def words (line : Text) : List Text := wordsFrom [] false line

theorem flatten_wordsFrom (word : Text) (isOver : Bool) (t : Text) :
    (wordsFrom word isOver t).flatten = word ++ t := by
  induction t generalizing word isOver with
  | nil => simp [wordsFrom]
  | cons c rest ih =>
    unfold wordsFrom
    split
    · rw [ih, List.append_assoc, List.singleton_append]
    · split
      · rw [List.flatten_cons, ih, List.singleton_append]
      · rw [ih, List.append_assoc, List.singleton_append]

theorem flatten_words (line : Text) : (words line).flatten = line := flatten_wordsFrom [] false line

/-- Puts words into lines; `line` is the last line so far, and fills `used` cells. A word that is too
wide for any line has one to itself. -/
def wrapFrom (width used : Nat) (line : Text) : List Text → List Text
  | [] => [line]
  | word :: rest =>
    let size := Text.cellWidth word
    if used + Text.cellWidth (trimEnd word) ≤ width then
      wrapFrom width (used + size) (line ++ word) rest
    else if line.isEmpty then wrapFrom width size word rest
    else line :: wrapFrom width size word rest

/-- Wrapping moves words to other lines and keeps them all. -/
theorem flatten_wrapFrom (width used : Nat) (line : Text) (words : List Text) :
    (wrapFrom width used line words).flatten = line ++ words.flatten := by
  induction words generalizing used line with
  | nil => simp [wrapFrom]
  | cons word rest ih =>
    unfold wrapFrom
    split
    · rw [ih, List.append_assoc, List.flatten_cons]
    · split
      · next h =>
        rw [ih, List.isEmpty_iff.1 h, List.nil_append, List.flatten_cons]
      · rw [List.flatten_cons, ih, List.flatten_cons]

/-- The line without blanks at its end, as far as it has more characters than fit. -/
def cropped (width : Nat) (line : Text) : Text :=
  let blanks := line.length - (trimEnd line).length
  line.take (line.length - min blanks (line.length - width))

def wrapped (width : Nat) (line : Text) : List Text :=
  (wrapFrom width 0 [] (words line)).map (cropped width)

def visible (t : Text) : Text := t.filter fun c => !CharSet.blank.contains c

theorem visible_cropped (width : Nat) (line : Text) : visible (cropped width line) = visible line := by
  have hsplit : line = trimEnd line ++ (line.reverse.takeWhile CharSet.blank.contains).reverse := by
    rw [trimEnd, ← List.reverse_append, List.takeWhile_append_dropWhile, List.reverse_reverse]
  have hblank : ∀ c ∈ (line.reverse.takeWhile CharSet.blank.contains).reverse,
      CharSet.blank.contains c = true := fun c hc =>
    List.all_eq_true.1 List.all_takeWhile c (List.mem_reverse.1 hc)
  unfold cropped
  generalize hkept : trimEnd line = kept at hsplit ⊢
  generalize (line.reverse.takeWhile CharSet.blank.contains).reverse = blanks at hsplit hblank
  subst hsplit
  have hnone : ∀ k, (blanks.take k).filter (fun c => !CharSet.blank.contains c) = [] := fun k =>
    List.filter_eq_nil_iff.2 fun c hc => by simp [hblank c (List.mem_of_mem_take hc)]
  have hall := hnone blanks.length
  rw [List.take_length] at hall
  rw [List.take_append, List.take_of_length_le (by simp; omega)]
  simp [visible, hnone, hall]

/-- **Wrapping loses nothing that is seen**: the lines have the characters of the text, but for blanks. -/
theorem visible_wrapped (width : Nat) (line : Text) :
    (wrapped width line).flatMap visible = visible line := by
  have hflat : ∀ lines : List Text, lines.flatMap visible = visible lines.flatten := fun lines =>
    (List.filter_flatten ..).symm
  calc (wrapped width line).flatMap visible
      = (wrapFrom width 0 [] (words line)).flatMap visible := by
        simp [wrapped, List.flatMap_map, visible_cropped]
    _ = visible line := by rw [hflat, flatten_wrapFrom, flatten_words, List.nil_append]

def ellipsis : Char := Char.ofNat 0x2026

/-- A line in the width of its column. What is drawn together with the blanks behind it makes room for
more of them. -/
def filled (width : Nat) (line : Text) : Text :=
  Text.padded width
    (if width < Text.cellWidth line then Text.fitted (width - 1) line ++ [ellipsis]
    else Text.padded width line)

def layout (width : Nat) (t : Text) : List Text :=
  ((lines t).flatMap (wrapped width)).map (filled width)

end SyntaxSpans.Cell
