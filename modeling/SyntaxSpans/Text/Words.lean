import SyntaxSpans.Text.Basic

/-!
# Splitting a command into words

The quoting rules of a POSIX shell, without comments and expansions: blanks separate words; a
backslash takes the next character as it is; single quotes take everything up to the next single
quote; inside double quotes a backslash escapes only a double quote or itself. Quotes alone make an
empty word.
-/

namespace SyntaxSpans

namespace Words

inductive Error where
  | noClosingQuotation
  | noEscapedCharacter
deriving DecidableEq, Repr

def Error.message : Error → String
  | .noClosingQuotation => "No closing quotation"
  | .noEscapedCharacter => "No escaped character"

/-- The quotes that the reader is inside of. -/
inductive Quotes where
  | none
  | single
  | double

/-- The four characters that separate words. -/
def isSeparator (c : Char) : Bool := c = ' ' || c = '\t' || c = '\r' || c = '\n'

/-- The word begun so far, which is absent between words, with one more character. -/
def extend (word : Option Text) (c : Char) : Option Text := some (word.getD [] ++ [c])

/-- Splits the rest of a command, inside `quotes` and with `word` begun. -/
def splitFrom (quotes : Quotes) (word : Option Text) : Text → Except Error (List Text)
  | [] =>
    match quotes with
    | .none => .ok word.toList
    | _ => .error .noClosingQuotation
  | c :: rest =>
    match quotes with
    | .none =>
      if isSeparator c then (splitFrom .none none rest).map (word.toList ++ ·)
      else if c = '\'' then splitFrom .single (some (word.getD [])) rest
      else if c = '"' then splitFrom .double (some (word.getD [])) rest
      else if c = '\\' then
        match rest with
        | [] => .error .noEscapedCharacter
        | d :: rest => splitFrom .none (extend word d) rest
      else splitFrom .none (extend word c) rest
    | .single =>
      if c = '\'' then splitFrom .none word rest else splitFrom .single (extend word c) rest
    | .double =>
      if c = '"' then splitFrom .none word rest
      else if c = '\\' then
        match rest with
        | [] => .error .noEscapedCharacter
        | d :: rest =>
          let word := if d = '"' || d = '\\' then word else extend word '\\'
          splitFrom .double (extend word d) rest
      else splitFrom .double (extend word c) rest

def split (command : Text) : Except Error (List Text) := splitFrom .none none command

end Words

end SyntaxSpans
