import SyntaxSpans.Text.Basic
import SyntaxSpans.Text.CharSet

/-!
# Blank characters and trimming

Two notions of a blank are in use. `CharSet.whiteSpace` is the White_Space property of the Unicode
standard; `CharSet.blank` has the four ASCII separators (file, group, record, unit) as well.
-/

namespace SyntaxSpans

def CharSet.whiteSpace : CharSet where
  boundaries := [9, 14, 32, 33, 133, 134, 160, 161, 5760, 5761, 8192, 8203, 8232, 8234, 8239, 8240,
    8287, 8288, 12288, 12289]

/-- White space and the ASCII separators. -/
def CharSet.blank : CharSet where
  boundaries := [9, 14, 28, 33, 133, 134, 160, 161, 5760, 5761, 8192, 8203, 8232, 8234, 8239, 8240,
    8287, 8288, 12288, 12289]

def Text.trim (s : CharSet) (t : Text) : Text :=
  ((t.dropWhile s.contains).reverse.dropWhile s.contains).reverse

/-- The words of a text: what stands between blanks. -/
def Text.words (t : Text) : List Text :=
  let addTo (c : Char) (parts : Text × List Text) : Text × List Text :=
    if CharSet.blank.contains c then ([], parts.1 :: parts.2) else (c :: parts.1, parts.2)
  let (first, rest) := t.foldr addTo ([], [])
  (first :: rest).filter (!·.isEmpty)

end SyntaxSpans
