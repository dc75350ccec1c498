import SyntaxSpans.Text.Blank

/-!
# Reading integers

Two spellings of an integer are in use, and both allow single underscores between digits. A setting
takes the decimal digits of any script. A field of a tree takes ASCII digits and, after them, a point
with zeros only; among zeros in front it takes underscores at will, and a minus may follow them.
Neither reads more than a fixed number of digits.
-/

namespace SyntaxSpans

/-- The zero of every run of ten decimal digits in the Unicode standard (version 14). -/
def decimalZeros : List Nat := [
    48, 1632, 1776, 1984, 2406, 2534, 2662, 2790, 2918, 3046, 3174, 3302, 3430, 3558, 3664, 3792,
    3872, 4160, 4240, 6112, 6160, 6470, 6608, 6784, 6800, 6992, 7088, 7232, 7248, 42528, 43216,
    43264, 43472, 43504, 43600, 44016, 65296, 66720, 68912, 69734, 69872, 69942, 70096, 70384,
    70736, 70864, 71248, 71360, 71472, 71904, 72016, 72784, 73040, 73120, 92768, 92864, 93008,
    120782, 120792, 120802, 120812, 120822, 123200, 123632, 125264, 130032]

namespace Integer

/-- The value of a decimal digit of any script. -/
def digit? (c : Char) : Option Nat :=
  (decimalZeros.find? fun z => z ≤ c.toNat && c.toNat < z + 10).map (c.toNat - ·)

inductive Error where
  | malformed
  /-- It has more digits than are read. -/
  | tooLong (digits : Nat)
deriving DecidableEq, Repr

def maxDigits : Nat := 4300

def ofDigits (digits : List Nat) : Nat := digits.foldl (fun n d => 10 * n + d) 0

/-! ## Settings -/

/-- The digits behind a digit, with single underscores between them, and the text behind those. An
underscore that is not between two digits spoils the whole. -/
def runAfter? : Text → Option (List Nat × Text)
  | [] => some ([], [])
  | ['_'] => none
  | '_' :: c :: rest => do
    let d ← digit? c
    let (digits, behind) ← runAfter? rest
    return (d :: digits, behind)
  | c :: rest =>
    match digit? c with
    | none => some ([], c :: rest)
    | some d => (runAfter? rest).map fun (digits, behind) => (d :: digits, behind)

/-- The digits at the start of a text, one at least, and the text behind them. -/
def run? : Text → Option (List Nat × Text)
  | [] => none
  | c :: rest => do
    let d ← digit? c
    let (digits, behind) ← runAfter? rest
    return (d :: digits, behind)

/-- The number that a text without a sign spells. Digits are counted before what stands behind them
is looked at. -/
def unsigned (t : Text) : Except Error Nat :=
  match run? t with
  | none => .error .malformed
  | some (digits, behind) =>
    if maxDigits < digits.length then .error (.tooLong digits.length)
    else if behind.isEmpty then .ok (ofDigits digits)
    else .error .malformed

def ofSetting (t : Text) : Except Error Int :=
  match t.trim CharSet.whiteSpace with
  | '-' :: rest => (unsigned rest).map fun n => -(n : Int)
  | '+' :: rest => (unsigned rest).map fun n => (n : Int)
  | t => (unsigned t).map fun n => (n : Int)

/-! ## Fields -/

/-- What remains behind a zero in front: further zeros and underscores are idle, the last character
stays when there is nothing else, and a point keeps the character before it. -/
def withoutZerosAfter (last : Char) : Text → Option Text
  | [] => some [last]
  | c :: rest =>
    if c = '0' || c = '_' then withoutZerosAfter c rest
    else if c.isDigit || c = '-' then some (c :: rest)
    else if c = '.' then some (last :: c :: rest)
    else none

/-- A text that begins with a digit, without idle zeros in front. -/
def withoutZeros : Text → Option Text
  | [] => none
  | c :: rest =>
    if c = '0' then withoutZerosAfter c rest
    else if c.isDigit then some (c :: rest)
    else none

/-- The text without a final point that has one or more zeros, and nothing else, after it. -/
def withoutZeroFraction (t : Text) : Text :=
  match t.reverse.span (· == '0') with
  | (_ :: _, '.' :: rest) => rest.reverse
  | _ => t

def hasDoubleUnderscore : Text → Bool
  | '_' :: '_' :: _ => true
  | _ :: rest => hasDoubleUnderscore rest
  | [] => false

/-- The text without underscores, if each of them stands alone and inside. -/
def withoutUnderscores (t : Text) : Text :=
  if t.head? = some '_' || t.getLast? = some '_' || hasDoubleUnderscore t then t
  else t.filter (· != '_')

def plainSpelling? (t : Text) : Option Text :=
  (withoutZeros t).map fun t => withoutUnderscores (withoutZeroFraction t)

/-- A text that begins like a number is too long when its sign and the digits behind it are more
characters than are read; otherwise a number has nothing behind its digits, and no idle zeros. -/
def ofPlainSpelling (t : Text) : Except Error Int :=
  let (sign, body) := t.span (· == '-')
  let (digits, behind) := body.span (·.isDigit)
  if 1 < sign.length then .error .malformed
  else
    match digits with
    | [] => .error .malformed
    | first :: rest =>
      if first = '0' && !rest.isEmpty then .error .malformed
      else if maxDigits < sign.length + digits.length then
        .error (.tooLong (sign.length + digits.length))
      else if !behind.isEmpty then .error .malformed
      else
        let n := ofDigits (digits.map fun c => c.toNat - '0'.toNat)
        .ok (if sign.isEmpty then n else -n)

def ofField (t : Text) : Except Error Int :=
  let spelling := match t.trim CharSet.whiteSpace with
    | '-' :: rest => (plainSpelling? rest).map ('-' :: ·)
    | '+' :: rest => plainSpelling? rest
    | t => plainSpelling? t
  match spelling with
  | none => .error .malformed
  | some t => ofPlainSpelling t

end Integer

end SyntaxSpans
