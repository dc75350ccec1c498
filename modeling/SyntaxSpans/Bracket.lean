import SyntaxSpans.Text.Quoted
import SyntaxSpans.Tree.Basic

/-!
# Brackets

The counterpart of an opening bracket is the closing one at which the count of brackets of the same
kind, opening ones up and closing ones down, comes back to zero. Other characters do not count,
whatever they mean in the source.
-/

namespace SyntaxSpans

inductive Bracket where
  | round
  | square
  | curly
deriving DecidableEq, Repr

namespace Bracket

def opening : Bracket → Char
  | round => '('
  | square => '['
  | curly => '\x7b'

def closing : Bracket → Char
  | round => ')'
  | square => ']'
  | curly => '\x7d'

/-- All kinds, in the order of their opening characters. -/
def all : List Bracket := [round, square, curly]

def ofOpening? (opening : String) : Option Bracket :=
  all.find? fun b => String.singleton b.opening == opening

/-- Why a counterpart was not found. -/
inductive Error where
  | unsupported (opening : String)
  | unmatched (b : Bracket) (start : Int)
  /-- The search starts in front of the text. -/
  | outside
deriving DecidableEq, Repr

/-- The counterpart in a text that begins at `index` inside `depth` groups. -/
def counterpartFrom (b : Bracket) (depth index : Int) : Text → Option Int
  | [] => none
  | c :: rest =>
    if c = b.opening then counterpartFrom b (depth + 1) (index + 1) rest
    else if c = b.closing then
      if depth - 1 = 0 then some index else counterpartFrom b (depth - 1) (index + 1) rest
    else counterpartFrom b depth (index + 1) rest

/-- The characters met by an index that runs from `start` to the end of a text. A negative start
counts from the end, so the index first meets the end of the text and then all of it. -/
def scanned? (t : Text) (start : Int) : Option Text :=
  if 0 ≤ start then some (t.drop start.toNat)
  else if 0 ≤ start + t.length then some (t.drop (start + t.length).toNat ++ t)
  else none

def counterpart (b : Bracket) (t : Text) (start : Int) : Except Error Int :=
  match scanned? t start with
  | none => .error .outside
  | some scanned =>
    match counterpartFrom b 0 start scanned with
    | some index => .ok index
    | none => .error (.unmatched b start)

/-- The index of the counterpart of the opening character at `start`. -/
def find (opening : String) (t : Text) (start : Int) : Except Error Int :=
  match ofOpening? opening with
  | some b => b.counterpart t start
  | none => .error (.unsupported opening)

/-- Whether the opening character stands right before a span and its counterpart right behind it.
The character before the span must exist, unless the span starts the source. -/
def surrounds (opening : String) (span : Option Span) (source : Text) : Except Error Bool :=
  match span with
  | none => .ok false
  | some span =>
    let before := span.start - 1
    if before < 0 then .ok false
    else
      match at? source before with
      | none => .error .outside
      | some c =>
        if String.singleton c = opening then (find opening source before).map (· == span.stop)
        else .ok false

def Error.message : Error → String
  | .unsupported opening =>
    "Unsupported grouping character '" ++ opening ++ "'. Supported: "
      ++ quotedList (all.map fun b => String.singleton b.opening)
  | .unmatched b start =>
    "BUG! No counterpart found for '" ++ String.singleton b.opening ++ "' starting at offset "
      ++ toString start
  | .outside => "The offset is outside the text."

end Bracket

end SyntaxSpans
