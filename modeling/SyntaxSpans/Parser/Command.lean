import SyntaxSpans.Parser.Outcome
import SyntaxSpans.Text.Words

/-!
# Parser commands

A command that reads source and prints a tree. Running it is left to the surroundings; here is what
to run, and what the outcome means.
-/

namespace SyntaxSpans

structure Command where
  words : List String
  nonempty : words ≠ []
deriving DecidableEq

inductive Command.Error where
  | words (e : Words.Error)
  | empty
deriving DecidableEq, Repr

def Command.Error.message : Command.Error → String
  | .words e => e.message
  | .empty => "Parser command must not be empty."

/-- What a command leaves when it has ended. -/
structure Completion where
  status : Int := 0
  stdout : Text := []
  stderr : Text := []
deriving DecidableEq, Repr

namespace Command

def ofWords (words : List String) : Except Error Command :=
  if h : words ≠ [] then .ok ⟨words, h⟩ else .error .empty

def ofLine (line : String) : Except Error Command :=
  match Words.split line.toList with
  | .error e => .error (.words e)
  | .ok words => ofWords (words.map String.ofList)

def program (c : Command) : String := c.words.head c.nonempty

/-- The tree that a command has printed; nothing is left of it if the program was not found. -/
def tree (c : Command) (p : Option Completion) : Except ParserError Node :=
  match p with
  | none => .error (.notFound c.program)
  | some p =>
    if p.status = 0 then Node.ofDocument p.stdout
    else .error (.failed p.status (String.ofList (p.stderr.trim CharSet.blank)))

end Command

end SyntaxSpans
