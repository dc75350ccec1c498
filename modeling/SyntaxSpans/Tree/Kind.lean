import SyntaxSpans.Tree.Basic

/-!
# Child fields by kind

The kinds of a CoffeeScript tree and the fields of each that hold its children, from left to right.
A kind without a row here is walked through all its fields in the order in which they arrived.
-/

namespace SyntaxSpans

/-- Kinds with the two operands of a binary operator. -/
def Node.binaryKinds : List String := [
  "Range", "ConcatOp", "SeqOp", "PlusOp", "SubtractOp", "MultiplyOp", "DivideOp", "RemOp",
  "ExpOp", "LogicalAndOp", "LogicalOrOp", "ExistsOp", "EQOp", "NEQOp", "LTOp", "LTEOp", "GTOp",
  "GTEOp", "InOp", "OfOp", "InstanceofOp", "BitAndOp", "BitOrOp", "BitXorOp", "LeftShiftOp",
  "SignedRightShiftOp", "UnsignedRightShiftOp"]

/-- Kinds with one operand, in the field `expression`. -/
def Node.unaryKinds : List String := [
  "Constructor", "MemberAccessOp", "SoakedMemberAccessOp", "ProtoMemberAccessOp",
  "SoakedProtoMemberAccessOp", "ChainedComparisonOp", "Return", "Throw", "Rest", "Spread",
  "HeregExp", "LogicalNotOp", "BitNotOp", "TypeofOp", "UnaryExistsOp", "UnaryNegateOp",
  "UnaryPlusOp", "DoOp", "PreIncrementOp", "PreDecrementOp", "PostIncrementOp", "PostDecrementOp",
  "DeleteOp"]

def Node.leafKinds : List String := [
  "Identifier", "String", "Int", "Float", "Bool", "Null", "Undefined", "This", "JavaScript",
  "RegExp"]

/-- The remaining kinds, each with its child fields. -/
def Node.compoundKinds : List (String × List String) := [
  ("Program", ["body"]),
  ("Block", ["statements"]),
  ("Conditional", ["condition", "consequent", "alternate"]),
  ("While", ["condition", "body"]),
  ("ForIn", ["valAssignee", "keyAssignee", "target", "step", "filter", "body"]),
  ("ForOf", ["keyAssignee", "valAssignee", "target", "filter", "body"]),
  ("Switch", ["expression", "cases", "alternate"]),
  ("SwitchCase", ["conditions", "consequent"]),
  ("Try", ["body", "catchAssignee", "catchBody", "finallyBody"]),
  ("Function", ["parameters", "body"]),
  ("BoundFunction", ["parameters", "body"]),
  ("DefaultParam", ["param", "default"]),
  ("Class", ["nameAssignee", "superclass", "ctor", "body", "boundMembers"]),
  ("ClassProtoAssignOp", ["assignee", "expression"]),
  ("AssignOp", ["assignee", "expression"]),
  ("CompoundAssignOp", ["assignee", "expression"]),
  ("ExistsAssignOp", ["assignee", "expression"]),
  ("FunctionApplication", ["function", "arguments"]),
  ("SoakedFunctionApplication", ["function", "arguments"]),
  ("NewOp", ["ctor", "arguments"]),
  ("Super", ["arguments"]),
  ("DynamicMemberAccessOp", ["expression", "indexingExpr"]),
  ("SoakedDynamicMemberAccessOp", ["expression", "indexingExpr"]),
  ("DynamicProtoMemberAccessOp", ["expression", "indexingExpr"]),
  ("Slice", ["expression", "left", "right"]),
  ("ArrayInitialiser", ["members"]),
  ("ObjectInitialiser", ["members"]),
  ("ObjectInitialiserMember", ["key", "expression"])]

/-- The child fields of a kind that is known. -/
def Node.knownFields? (kind : String) : Option (List String) :=
  if Node.binaryKinds.contains kind then some ["left", "right"]
  else if Node.unaryKinds.contains kind then some ["expression"]
  else if Node.leafKinds.contains kind then some []
  else Node.compoundKinds.lookup kind

/-- The fields of a node that hold its children, from left to right. -/
def Node.childFields (n : Node) : List String :=
  (Node.knownFields? n.kind).getD n.fieldNames

end SyntaxSpans
