import SyntaxSpans.Json.Reader
import SyntaxSpans.Tree.Validation

/-!
# Trees as parsers print them

A parser prints a tree as a JSON document. What it prints may not be one, and the parser itself may
fail in other ways.
-/

namespace SyntaxSpans

inductive ParserError where
  | notFound (program : String)
  | failed (status : Int) (complaint : String)
  | invalidTree (issues : List Issue)
deriving DecidableEq, Repr

/-- The error in words; the faults of an invalid tree are not listed. -/
def ParserError.message : ParserError → String
  | .notFound program => "Parser command not found: " ++ program
  | .failed status complaint =>
    "Parser command exited with status " ++ toString status ++ ": " ++ complaint
  | .invalidTree _ => "Parser output is not a valid AST"

/-- The error in one line, which counts the faults of an invalid tree. -/
def ParserError.headline (e : ParserError) : String :=
  match e with
  | .invalidTree issues =>
    let errors := if issues.length = 1 then " validation error" else " validation errors"
    e.message ++ ": " ++ toString issues.length ++ errors ++ " for Node"
  | _ => e.message

/-- How deep the document of a tree may nest, and how long its numbers may be. -/
def Node.documentLimits : Json.Limits := ⟨200, Integer.maxDigits⟩

def Node.ofDocument (t : Text) : Except ParserError Node :=
  match Json.read? documentLimits t with
  | none => .error (.invalidTree [⟨.notJson, []⟩])
  | some j =>
    match Node.ofJson j with
    | .ok n => .ok n
    | .error issues => .error (.invalidTree issues)

end SyntaxSpans
