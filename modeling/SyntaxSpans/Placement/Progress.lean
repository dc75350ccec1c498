import Std.Data.TreeMap
import SyntaxSpans.Placement.Settle
import SyntaxSpans.Tree.Cursor

/-!
# Progress of a resolution

The tree itself never changes. What has been found out about its nodes is kept by path: where each
stands, whether its parent link has been set, and whether it has been resolved. A node without a
mark stands where it was reported and is neither linked nor resolved.
-/

namespace SyntaxSpans

structure Mark where
  placement : Placement
  linked : Bool := false
  resolved : Bool := false
deriving DecidableEq, Repr

/-- What has been found out about a tree, and the records so far, the last one first. -/
structure Progress where
  marks : Std.TreeMap Path Mark := {}
  records : List Record := []

namespace Progress

def mark (p : Progress) (c : Cursor) : Mark :=
  (p.marks[c.path]?).getD { placement := c.node.placement }

def setMark (p : Progress) (c : Cursor) (m : Mark) : Progress :=
  { p with marks := p.marks.insert c.path m }

/-- Adds records in the order in which they were made. -/
def record (p : Progress) (records : List Record) : Progress :=
  { p with records := records.reverse ++ p.records }

/-- The records in the order in which they were made. -/
def log (p : Progress) : List Record := p.records.reverse

@[simp] theorem mark_setMark_self (p : Progress) (c : Cursor) (m : Mark) :
    (p.setMark c m).mark c = m := by
  simp [mark, setMark]

theorem mark_setMark_of_ne (p : Progress) {c d : Cursor} (m : Mark) (h : c.path ≠ d.path) :
    (p.setMark c m).mark d = p.mark d := by
  simp [mark, setMark, Std.TreeMap.getElem?_insert, h]

@[simp] theorem mark_record (p : Progress) (records : List Record) (c : Cursor) :
    (p.record records).mark c = p.mark c := rfl

@[simp] theorem records_setMark (p : Progress) (c : Cursor) (m : Mark) :
    (p.setMark c m).records = p.records := rfl

end Progress

/-- A step of a resolution: it may end in a fault, and keeps what was found out before. -/
abbrev Resolving := EStateM Fault Progress

namespace Resolving

def mark (c : Cursor) : Resolving Mark := return (← get).mark c

def placement (c : Cursor) : Resolving Placement := return (← mark c).placement

def place (c : Cursor) (placement : Placement) : Resolving Unit := do
  let m ← mark c
  modify (·.setMark c { m with placement })

def link (c : Cursor) : Resolving Unit := do
  let m ← mark c
  modify (·.setMark c { m with linked := true })

/-- Notes that a node has been dealt with. -/
def markResolved (c : Cursor) : Resolving Unit := do
  let m ← mark c
  modify (·.setMark c { m with resolved := true })

def record (r : Record) : Resolving Unit := modify (·.record [r])

end Resolving

end SyntaxSpans
