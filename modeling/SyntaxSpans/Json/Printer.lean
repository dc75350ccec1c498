import SyntaxSpans.Json.Basic
import SyntaxSpans.Number.Shortest
import SyntaxSpans.Text.Quoted

/-!
# Writing JSON

Documents in ASCII: a character outside it, and a control character without a letter of its own, is
written by its UTF-16 code units. Laid out with two spaces per level; an empty container takes no
line of its own.
-/

namespace SyntaxSpans.Json

/-- The escape of one UTF-16 code unit. -/
def unitEscape (n : Nat) : Text := '\\' :: 'u' :: Text.Quoted.hex 4 n

def escape (c : Char) : Text :=
  let n := c.toNat
  if c = '"' ∨ c = '\\' then ['\\', c]
  else if c = '\n' then ['\\', 'n']
  else if c = '\r' then ['\\', 'r']
  else if c = '\t' then ['\\', 't']
  else if n = 8 then ['\\', 'b']
  else if n = 12 then ['\\', 'f']
  else if 0x20 ≤ n ∧ n < 0x7F then [c]
  else if n < 0x10000 then unitEscape n
  else
    unitEscape (0xD800 + (n - 0x10000) / 0x400) ++ unitEscape (0xDC00 + (n - 0x10000) % 0x400)

def encodeString (s : String) : Text := '"' :: s.toList.flatMap escape ++ ['"']

/-- The text of a number that is not an integer. -/
def encodeFloat (x : Float) : Text :=
  match FloatKind.ofFloat x with
  | .nan => ['N', 'a', 'N']
  | .infinite false => "Infinity".toList
  | .infinite true => "-Infinity".toList
  | kind => kind.text

def encodeScalar : Scalar → Text
  | .null => "null".toList
  | .bool true => "true".toList
  | .bool false => "false".toList
  | .int n => (toString n).toList
  | .float x => encodeFloat x
  | .str s => encodeString s

/-- How the parts of a container are set apart: by lines with an indent, or not at all. -/
inductive Layout where
  | lines
  | compact

/-- What goes in front of a part at the given level. -/
def Layout.lead (layout : Layout) (level : Nat) : Text :=
  match layout with
  | .lines => '\n' :: List.replicate (2 * level) ' '
  | .compact => []

def Layout.colon (layout : Layout) : Text :=
  match layout with
  | .lines => [':', ' ']
  | .compact => [':']

mutual

/-- The text of a value whose container stands at the given level. -/
def encodeAt (layout : Layout) (level : Nat) : Json → Text
  | .scalar s => encodeScalar s
  | .arr [] => ['[', ']']
  | .arr (item :: items) =>
    '[' :: layout.lead (level + 1) ++ encodeAt layout (level + 1) item
      ++ encodeItems layout (level + 1) items ++ layout.lead level ++ [']']
  | .obj [] => ['\x7b', '\x7d']
  | .obj ((key, value) :: entries) =>
    '\x7b' :: layout.lead (level + 1) ++ encodeString key ++ layout.colon
      ++ encodeAt layout (level + 1) value ++ encodeEntries layout (level + 1) entries
      ++ layout.lead level ++ ['\x7d']

/-- The items behind the first one. -/
def encodeItems (layout : Layout) (level : Nat) : List Json → Text
  | [] => []
  | item :: items =>
    ',' :: layout.lead level ++ encodeAt layout level item ++ encodeItems layout level items

def encodeEntries (layout : Layout) (level : Nat) : List (String × Json) → Text
  | [] => []
  | (key, value) :: entries =>
    ',' :: layout.lead level ++ encodeString key ++ layout.colon
      ++ encodeAt layout level value ++ encodeEntries layout level entries

end

def encode (layout : Layout) (j : Json) : Text := encodeAt layout 0 j

end SyntaxSpans.Json
