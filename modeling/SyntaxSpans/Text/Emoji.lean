import SyntaxSpans.Text.Blank
import SyntaxSpans.Text.Emoji.Names
import SyntaxSpans.Text.Lowercase

/-!
# Emoji by name

A name between two colons stands for an emoji. Names of people and of parts of the body may end in a
skin tone, and the name of a country may follow the words "flag for". Behind the name `-emoji` or
`-text` says how to draw it.
-/

namespace SyntaxSpans.Emoji

/-- The entries of a table: names and what stands behind the equals signs. -/
def entries (source : String) : List (Text × Text) :=
  (Text.words source.toList).map fun word =>
    let (name, value) := word.span (· != '=')
    (name, value.drop 1)

def hexDigit (c : Char) : Nat :=
  if c.isDigit then c.toNat - '0'.toNat else c.toNat - 'A'.toNat + 10

/-- The characters whose code points stand between plus signs. -/
def ofCodes (codes : Text) : Text :=
  (codes.splitOn '+').map fun code => Char.ofNat (code.foldl (fun n c => 16 * n + hexDigit c) 0)

/-- The flag that two letters stand for: each letter has a regional indicator. -/
def ofLetters (letters : Text) : Text :=
  letters.map fun c => Char.ofNat (c.toNat - 'A'.toNat + 0x1F1E6)

def countries : List (Text × Text) := entries countryNames

def toned : List (Text × Text) := entries tonedNames

def flags : List (Text × Text) := entries flagNames

def plain : List (Text × Text) := entries plainNames

/-- The skin tones, with what names end in. -/
def tones : List (Text × Char) :=
  [("_light_skin_tone", 0x1F3FB), ("_medium-light_skin_tone", 0x1F3FC),
    ("_medium_skin_tone", 0x1F3FD), ("_medium-dark_skin_tone", 0x1F3FE),
    ("_dark_skin_tone", 0x1F3FF)].map fun (ending, code) => (ending.toList, Char.ofNat code)

def before? (ending t : Text) : Option Text :=
  if ending.isSuffixOf t then some (t.take (t.length - ending.length)) else none

/-- An emoji in a skin tone: the tone follows the first character and replaces a selector there. -/
def withTone (tone : Char) : Text → Text
  | [] => []
  | c :: rest => c :: tone :: rest.dropWhile (· == Char.ofNat 0xFE0F)

def inTone? (name : Text) : Option Text :=
  tones.findSome? fun (ending, tone) => do
    let codes ← toned.lookup (← before? ending name)
    return withTone tone (ofCodes codes)

def flag? (name : Text) : Option Text :=
  let start := "flag_for_".toList
  let country := if start.isPrefixOf name then name.drop start.length else name
  (countries.lookup country <|> flags.lookup name).map ofLetters

def named? (name : Text) : Option Text :=
  ((plain.lookup name <|> toned.lookup name).map ofCodes) <|> inTone? name <|> flag? name

/-- The endings of names that say how to draw an emoji, with the selectors for it. -/
def selectors : List (Text × Char) :=
  [("-emoji".toList, Char.ofNat 0xFE0F), ("-text".toList, Char.ofNat 0xFE0E)]

/-- What a name between colons stands for, whatever its case. -/
def ofName? (name : Text) : Option Text :=
  let (name, selector) :=
    match selectors.findSome? fun (ending, c) => (before? ending name).map (·, [c]) with
    | some found => found
    | none => (name, [])
  (named? (Text.lower name)).map (· ++ selector)

/-- The name that a colon in front of the text begins, without blanks and with a colon behind it, and
the text behind that. -/
def name? (t : Text) : Option (Text × Text) :=
  let inName (c : Char) : Bool := c != ':' && !CharSet.blank.contains c
  match t.dropWhile inName with
  | ':' :: rest => some (t.takeWhile inName, rest)
  | _ => none

theorem length_of_name? {t name rest : Text} (h : name? t = some (name, rest)) :
    rest.length < t.length := by
  unfold name? at h
  simp only at h
  split at h
  · next r heq =>
    cases h
    have hl := (List.dropWhile_sublist (fun c => c != ':' && !CharSet.blank.contains c)
      (l := t)).length_le
    rw [heq, List.length_cons] at hl
    exact hl
  · cases h

/-- The text with emoji in the place of their names. A name that stands for none stays, and both its
colons count as read. -/
def replaceNames (t : Text) : Text :=
  match t with
  | [] => []
  | c :: rest =>
    if c = ':' then
      match _h : name? rest with
      | some (name, rest') => (ofName? name).getD (':' :: name ++ [':']) ++ replaceNames rest'
      | none => c :: replaceNames rest
    else c :: replaceNames rest
termination_by t.length
decreasing_by
  · have := length_of_name? (by assumption)
    rw [List.length_cons]
    omega
  · simp only [List.length_cons, Nat.lt_add_one]
  · simp only [List.length_cons, Nat.lt_add_one]

end SyntaxSpans.Emoji
