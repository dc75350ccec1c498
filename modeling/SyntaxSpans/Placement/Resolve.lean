import SyntaxSpans.Placement.Progress

/-!
# Resolving the nodes of a tree

Every node with text is settled. A node without text gets it from its operands: a negation that is
the condition of a conditional takes the place of what it negates, and an operator reaches from its
left operand to its right one. The condition of a loop may do without text.

Operands are resolved before the operator that needs them, whether or not the walk has come to them,
and each node is resolved once. A chain of operators nests to the left, one operator per operand; its
operators without text are resolved from the innermost outwards.
-/

namespace SyntaxSpans

namespace Locator

open Resolving

/-- Whether a node is linked to a parent, as the content of the named field. -/
def heldAs (c : Cursor) (name : String) : Resolving Bool :=
  return (← mark c).linked && c.isIn name

def heldBy (c : Cursor) (kind name : String) : Resolving Bool :=
  return (← heldAs c name) && c.parentKind == some kind

def gap (c : Cursor) (cause : Gap) : Resolving Unit := do
  let p ← placement c
  throw (.gap cause c.kind p.line p.column)

def settleAt (l : Locator) (c : Cursor) (raw : Text) : Resolving Unit := do
  let p ← placement c
  let isStep ← heldAs c "step"
  let s := l.settle ⟨c.kind, isStep⟩ raw p.toAnchor
  place c { s.anchor with raw := some s.raw }
  modify (·.record s.records)
  match s.fault with
  | some fault => throw fault
  | none => pure ()

mutual

/-- Resolves a node, unless that was done before. -/
def resolve (l : Locator) (c : Cursor) : Resolving Unit := do
  if (← mark c).resolved then pure ()
  else
    markResolved c
    locate l c
termination_by (sizeOf c.node, 2)

/-- Finds the place of a node. -/
def locate (l : Locator) (c : Cursor) : Resolving Unit := do
  let p ← placement c
  match p.raw with
  | some raw => settleAt l c raw
  | none =>
    if p.span.isNone && c.kind == "ConcatOp" then record .skippedConcatenation
    else if ← heldBy c "While" "condition" then record (.skippedCondition p.line)
    else if c.kind == "LogicalNotOp" && (← heldBy c "Conditional" "condition") then
      match _h : c.child? "expression" with
      | none => throw (.missingOperand "expression")
      | some operand =>
        resolveOperand l operand
        let q ← placement operand
        match q.raw with
        | none => gap c .operandWithoutText
        | some raw =>
          place c q
          settleAt l c raw
    else
      match _hl : c.child? "left", _hr : c.child? "right" with
      | some left, some right =>
        resolveSpine l c
        resolveOperand l left
        resolveOperand l right
        let p ← placement left
        let q ← placement right
        match p.span, q.span with
        | some first, some last =>
          let span : Span := ⟨first.start, last.stop⟩
          let raw := span.read l.source
          place c { p with raw := some raw, span := some span }
          settleAt l c raw
        | _, _ => gap c .operandWithoutSpan
      | _, _ => gap c .noText
termination_by (sizeOf c.node, 1)
decreasing_by
  all_goals
    first
      | exact Prod.Lex.left _ _ (Cursor.sizeOf_child?_lt (by assumption))
      | exact Prod.Lex.right _ (by decide)

/-- Resolves an operand on behalf of the node that needs it. -/
def resolveOperand (l : Locator) (c : Cursor) : Resolving Unit := do
  link c
  resolve l c
termination_by (sizeOf c.node, 3)

/-- Resolves the operators without text that a node begins with, the innermost first. -/
def resolveSpine (l : Locator) (c : Cursor) : Resolving Unit := do
  match _h : c.child? "left" with
  | none => pure ()
  | some left =>
    let m ← mark left
    if m.placement.raw.isNone && !m.resolved && (left.child? "right").isSome then
      link left
      resolveSpine l left
      resolve l left
    else pure ()
termination_by (sizeOf c.node, 0)
decreasing_by
  all_goals exact Prod.Lex.left _ _ (Cursor.sizeOf_child?_lt (by assumption))

end

/-- Strips one pair of parentheses off a node, takes them off its span too when `adjust` is set, and
settles what is left. Answers whether there was a pair. -/
def strip (l : Locator) (c : Cursor) (adjust : Bool) : Resolving Bool := do
  let p ← placement c
  match p.raw with
  | none => return false
  | some raw =>
    match strip? raw with
    | .error e => throw (.bracket e)
    | .ok none => return false
    | .ok (some inner) =>
      let a := if adjust then p.toAnchor.inset else p.toAnchor
      place c { a with raw := some inner }
      record (.stripped c.kind inner)
      settleAt l c inner
      return true

end Locator

end SyntaxSpans
