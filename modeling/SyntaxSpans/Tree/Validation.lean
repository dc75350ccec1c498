import SyntaxSpans.Number.Integer
import SyntaxSpans.Number.Shortest
import SyntaxSpans.Tree.Basic

/-!
# Reading trees from JSON

An object with a textual `type` is a node. Of its entries `raw`, `range`, `line` and `column` say
where it stands, `parent` and `scope` are reserved for the annotation, and all others are fields.
A parser may keep the superclass of a class under `parent`; such an object moves to the field
`superclass`. All faults of one node's own entries are reported together; a fault in a nested node
is reported alone, with its path counted from that node.
-/

namespace SyntaxSpans

inductive Issue.Cause where
  | missing
  | notString
  | notInteger
  | unreadableInteger
  | oversizedInteger
  | fractional
  | notFinite
  | notPair
  | tooLong
  | notNode
  | belowMinimum
  | notJson
deriving DecidableEq, Repr

inductive Issue.Step where
  | key (name : String)
  | index (i : Nat)
deriving DecidableEq, Repr

/-- A fault of a value, with the path to it. -/
structure Issue where
  cause : Issue.Cause
  path : List Issue.Step
deriving DecidableEq, Repr

/-- A value that was checked, or all that is wrong with it. -/
abbrev Checked (α : Type) := Except (List Issue) α

def Checked.issues {α : Type} : Checked α → List Issue
  | .ok _ => []
  | .error issues => issues

namespace Validation

def fail {α : Type} (cause : Issue.Cause) (path : List Issue.Step) : Checked α :=
  .error [⟨cause, path⟩]

/-! ## Declared entries -/

/-- The integer that a value stands for: numbers without a fraction, truth values and the texts of
integers count. A number that is written with a point or an exponent stands for an integer of less
than 64 bits only. -/
def integer : Json → Except Issue.Cause Int
  | .scalar (.int n) => .ok n
  | .scalar (.bool b) => .ok (if b then 1 else 0)
  | .scalar (.float x) =>
    let kind := FloatKind.ofFloat x
    if !kind.isFinite then .error .notFinite
    else match kind.toInt? with
      | some n => if n.natAbs < Nat.pow 2 63 then .ok n else .error .oversizedInteger
      | none => .error .fractional
  | .scalar (.str s) =>
    match Integer.ofField s.toList with
    | .ok n => .ok n
    | .error .malformed => .error .unreadableInteger
    | .error (.tooLong _) => .error .oversizedInteger
  | _ => .error .notInteger

def integerAt (path : List Issue.Step) (j : Json) : Checked Int :=
  match integer j with
  | .ok n => .ok n
  | .error cause => fail cause path

/-- Checks an entry that may be absent or null. -/
def optional {α : Type} (check : List Issue.Step → Json → Checked α) (name : String)
    (entries : List (String × Json)) : Checked (Option α) :=
  match entries.lookup name with
  | none | some (.scalar .null) => .ok none
  | some j => (check [.key name] j).map some

def kind (entries : List (String × Json)) : Checked String :=
  match entries.lookup "type" with
  | some (.scalar (.str s)) => .ok s
  | some _ => fail .notString [.key "type"]
  | none => fail .missing [.key "type"]

def text (path : List Issue.Step) : Json → Checked Text
  | .scalar (.str s) => .ok s.toList
  | _ => fail .notString path

/-- The span of a node: exactly two integers. -/
def span (path : List Issue.Step) : Json → Checked Span
  | .arr items =>
    let bound (i : Nat) : Checked Int :=
      match items[i]? with
      | some j => integerAt (path ++ [.index i]) j
      | none => fail .missing (path ++ [.index i])
    if 2 < items.length then fail .tooLong path
    else
      match bound 0, bound 1 with
      | .ok start, .ok stop => .ok ⟨start, stop⟩
      | a, b => .error (a.issues ++ b.issues)
  | _ => fail .notPair path

/-- The entry `parent` holds nothing, or the superclass of a class. -/
def parent (entries : List (String × Json)) : Checked Unit :=
  match entries.lookup "parent" with
  | none | some (.scalar .null) | some (.obj _) => .ok ()
  | some _ => fail .notNode [.key "parent"]

/-- The kind and the place of a node, or the faults of all entries that say them. -/
def declared (entries : List (String × Json)) : Checked (String × Placement) :=
  match kind entries, optional text "raw" entries, optional span "range" entries,
    optional integerAt "line" entries, optional integerAt "column" entries, parent entries with
  | .ok kind, .ok raw, .ok span, .ok line, .ok column, .ok () =>
    .ok (kind, { raw, span, line, column })
  | kind, raw, span, line, column, parent =>
    .error (kind.issues ++ raw.issues ++ span.issues ++ line.issues ++ column.issues
      ++ parent.issues)

/-! ## Fields -/

/-- The entries that are not fields. -/
def reserved : List String := ["type", "raw", "range", "line", "column", "parent", "scope"]

def isNode (entries : List (String × Json)) : Bool :=
  match entries.lookup "type" with
  | some (.scalar (.str _)) => true
  | _ => false

/-- Puts what stands under `parent` under `superclass`, if it is an object. -/
def moveSuperclass {α : Type} (entries : List (String × Json)) (converted : List (String × α)) :
    List (String × α) :=
  match entries.lookup "parent", converted.lookup "parent" with
  | some (.obj _), some superclass => upsert converted "superclass" superclass
  | _, _ => converted

/-- The fields of a node, or the faults of the first one that has any. -/
def sequence : List (String × Checked Value) → Checked (List (String × Value))
  | [] => .ok []
  | (name, .ok value) :: rest => (sequence rest).map ((name, value) :: ·)
  | (_, .error issues) :: _ => .error issues

/-- A node from its entries and from what each of them is as a field. -/
def assemble (entries : List (String × Json)) (converted : List (String × Checked Value)) :
    Checked Node := do
  let (kind, placement) ← declared entries
  let fields := (moveSuperclass entries converted).filter fun f => !reserved.contains f.1
  return .mk kind placement (← sequence fields)

mutual

def value : Json → Checked Value
  | .scalar s => .ok (.scalar s)
  | .arr items => (values items).map .list
  | .obj entries =>
    if isNode entries then (assemble entries (conversions entries)).map .node
    else .ok (.object entries)

def values : List Json → Checked (List Value)
  | [] => .ok []
  | j :: rest =>
    match value j with
    | .error issues => .error issues
    | .ok v => (values rest).map (v :: ·)

def conversions : List (String × Json) → List (String × Checked Value)
  | [] => []
  | (name, j) :: rest => (name, value j) :: conversions rest

end

end Validation

def Node.ofJson (j : Json) : Checked Node :=
  match j with
  | .obj entries => Validation.assemble entries (Validation.conversions entries)
  | _ => Validation.fail .notNode []

end SyntaxSpans
