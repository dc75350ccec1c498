import SyntaxSpans.Text.Basic
import SyntaxSpans.Text.Printable

/-!
# Quoted text

Text as it is shown in messages: in single quotes, or in double quotes when it has a single quote
and no double one. The quote in use and the backslash are escaped, line feeds, returns and tabs
have their letters, and every other character that is not printable is written by its code.
-/

namespace SyntaxSpans.Text.Quoted

def quote (t : Text) : Char :=
  if t.contains '\'' && !t.contains '"' then '"' else '\''

/-- The lower-case hexadecimal digits of a code, padded with zeros to `width`. -/
def hex (width n : Nat) : Text :=
  let ds := Nat.toDigits 16 n
  List.replicate (width - ds.length) '0' ++ ds

def escape (q c : Char) : Text :=
  if c = q || c = '\\' then ['\\', c]
  else if c = '\n' then ['\\', 'n']
  else if c = '\r' then ['\\', 'r']
  else if c = '\t' then ['\\', 't']
  else if isPrintable c then [c]
  else if c.toNat < 0x100 then '\\' :: 'x' :: hex 2 c.toNat
  else if c.toNat < 0x10000 then '\\' :: 'u' :: hex 4 c.toNat
  else '\\' :: 'U' :: hex 8 c.toNat

def encode (t : Text) : Text :=
  let q := quote t
  q :: t.flatMap (escape q) ++ [q]

end SyntaxSpans.Text.Quoted

namespace SyntaxSpans

def quoted (s : String) : String := String.ofList (Text.Quoted.encode s.toList)

def quotedList (xs : List String) : String :=
  "[" ++ ", ".intercalate (xs.map quoted) ++ "]"

end SyntaxSpans
