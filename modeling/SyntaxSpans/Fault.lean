import SyntaxSpans.Bracket

/-!
# What can go wrong, and what is recorded

The faults that end an annotation, the records that it leaves, and the wording of both.
-/

namespace SyntaxSpans

/-- A number that may be missing, in a message. -/
def optionalNumber : Option Int → String
  | some n => toString n
  | none => "None"

/-- Why a node cannot be placed. -/
inductive Gap where
  /-- The node has no text, and there is no rule to make one. -/
  | noText
  | operandWithoutText
  | operandWithoutSpan
  /-- The text does not stand where it was reported. -/
  | misplaced
deriving DecidableEq, Repr

/-- A fault that ends an annotation. -/
inductive Fault where
  | gap (cause : Gap) (kind : String) (line column : Option Int)
  | bracket (e : Bracket.Error)
  | noSuchLine (line : Int)
  | missingOperand (field : String)
  /-- Something else stands where a node or a scope has to be. -/
  | notNode
  /-- Something that has no elements stands where a list has to be. -/
  | notList
deriving DecidableEq, Repr

def Fault.message : Fault → String
  | .gap cause kind line column =>
    let reason := match cause with
      | .noText => "because it has no raw value"
      | .operandWithoutText => "because its operand has no raw value"
      | .operandWithoutSpan => "because an operand has no range"
      | .misplaced => "at line " ++ optionalNumber line ++ ", column " ++ optionalNumber column
    "BUG! Could not fix range for " ++ kind ++ " " ++ reason
  | .bracket e => e.message
  | .noSuchLine line => "There is no line " ++ toString line ++ "."
  | .missingOperand field => "There is no node in the field " ++ field ++ "."
  | .notNode => "There is no node where one has to be."
  | .notList => "There is no list where one has to be."

/-- What the annotation records about its progress. -/
inductive Record where
  | skippedConcatenation
  | skippedCondition (line : Option Int)
  | ignoredStep (line column : Option Int)
  | stripped (kind : String) (raw : Text)
  | annotated (nodes : Nat)
deriving DecidableEq, Repr

inductive Record.Level where
  | debug
  | info
deriving DecidableEq, Repr

/-- Only the final count is more than a detail. -/
def Record.level : Record → Record.Level
  | .annotated _ => .info
  | _ => .debug

def Record.Level.name : Record.Level → String
  | .debug => "DEBUG"
  | .info => "INFO"

def Record.message : Record → String
  | .skippedConcatenation => "Skipping implicit ConcatOp without range"
  | .skippedCondition line =>
    "Skipping while condition without raw at line " ++ optionalNumber line
  | .ignoredStep line column =>
    "Ignoring invalid step at line " ++ optionalNumber line ++ ", column "
      ++ optionalNumber column
  | .stripped kind raw =>
    "Shrunk " ++ kind ++ " past parentheses to " ++ quoted (String.ofList raw)
  | .annotated nodes => "Annotated " ++ toString nodes ++ " nodes"

end SyntaxSpans
