import SyntaxSpans.Placement.Resolve
import SyntaxSpans.Proofs.Descent

/-!
# The place a node ends up at

Where a resolution leaves a node depends on the tree and the locator alone. `Cursor.rule` says what
the node's text is taken from, `Locator.final?` follows the rule down the operands and settles what
it finds, and `c.Draws d` says that the place of `d` goes into that of `c`. Nothing here has a state;
that the resolver computes `final?`, whatever it did before, is shown in `Proofs/Resolution.lean`.
-/

namespace SyntaxSpans

/-! ## Rules -/

inductive Cursor.Rule where
  /-- The text that was reported. -/
  | own (raw : Text)
  /-- Nothing: the node may stay as it was reported. -/
  | bare
  /-- The place of the negated operand. -/
  | negation (operand : Cursor)
  /-- The source from the left operand to the right one. -/
  | operator (left right : Cursor)
  /-- There is no rule for the node. -/
  | stuck

namespace Cursor

/-- What settling must know of the node. -/
def role (c : Cursor) : Role := ⟨c.kind, c.isIn "step"⟩

def isLoopGuard (c : Cursor) : Bool := c.isIn "condition" && c.parentKind == some "While"

/-- A negation that is the condition of a conditional. -/
def isNegatedGuard (c : Cursor) : Bool :=
  c.kind == "LogicalNotOp" && (c.isIn "condition" && c.parentKind == some "Conditional")

def isImplicit (c : Cursor) : Bool := c.node.placement.span.isNone && c.kind == "ConcatOp"

/-- What the text of the node is taken from. -/
def rule (c : Cursor) : Rule :=
  match c.node.placement.raw with
  | some raw => .own raw
  | none =>
    if c.isImplicit || c.isLoopGuard then .bare
    else if c.isNegatedGuard then
      match c.child? "expression" with
      | some operand => .negation operand
      | none => .stuck
    else
      match c.child? "left", c.child? "right" with
      | some left, some right => .operator left right
      | _, _ => .stuck

def Rule.operands : Rule → List Cursor
  | .negation operand => [operand]
  | .operator left right => [left, right]
  | .own _ | .bare | .stuck => []

/-- The nodes whose places go directly into that of the node. -/
def operands (c : Cursor) : List Cursor := c.rule.operands

section
variable {c d e : Cursor}

theorem rule_own {raw : Text} : c.rule = .own raw ↔ c.node.placement.raw = some raw := by
  unfold rule
  split
  · next raw' h => simp [h]
  · next h =>
    rw [h]
    split
    · simp
    · split <;> split <;> simp

theorem child_of_negation (h : c.rule = .negation d) : c.child? "expression" = some d := by
  unfold rule at h
  split at h
  · cases h
  · split at h
    · cases h
    · split at h
      · split at h
        · next hd => cases h; exact hd
        · cases h
      · split at h <;> cases h

theorem isNegatedGuard_of_negation (h : c.rule = .negation d) : c.isNegatedGuard = true := by
  unfold rule at h
  split at h
  · cases h
  · split at h
    · cases h
    · split at h
      · next hn => exact hn
      · split at h <;> cases h

theorem children_of_operator (h : c.rule = .operator d e) :
    c.child? "left" = some d ∧ c.child? "right" = some e := by
  unfold rule at h
  split at h
  · cases h
  · split at h
    · cases h
    · split at h
      · split at h <;> cases h
      · split at h
        · next hl hr => cases h; exact ⟨hl, hr⟩
        · cases h

/-- A node without text that stays as it is belongs to one of two kinds of exceptions. -/
theorem rule_bare : c.rule = .bare ↔
    c.node.placement.raw = none ∧ (c.isImplicit = true ∨ c.isLoopGuard = true) := by
  unfold rule
  split
  · next raw h => simp [h]
  · next h =>
    rw [h]
    split
    · next hb => simpa using hb
    · next hb =>
      simp only [Bool.or_eq_true] at hb
      split <;> split <;> simp [hb]

theorem operands_own {raw : Text} (h : c.rule = .own raw) : c.operands = [] := by
  rw [operands, h]; rfl

theorem operands_bare (h : c.rule = .bare) : c.operands = [] := by
  rw [operands, h]; rfl

theorem operands_negation (h : c.rule = .negation d) : c.operands = [d] := by
  rw [operands, h]; rfl

theorem operands_operator (h : c.rule = .operator d e) : c.operands = [d, e] := by
  rw [operands, h]; rfl

/-- The operands are what three of the fields hold. -/
theorem child_of_mem_operands (h : d ∈ c.operands) :
    ∃ name ∈ ["expression", "left", "right"], c.child? name = some d := by
  unfold operands at h
  cases hr : c.rule with
  | own _ | bare | stuck => rw [hr] at h; cases h
  | negation e =>
    rw [hr] at h
    exact ⟨_, by simp, List.mem_singleton.1 h ▸ child_of_negation hr⟩
  | operator l r =>
    rw [hr] at h
    obtain ⟨hl, hr'⟩ := children_of_operator hr
    rcases List.mem_cons.1 h with rfl | h
    · exact ⟨_, by simp, hl⟩
    · exact ⟨_, by simp, List.mem_singleton.1 h ▸ hr'⟩

theorem sizeOf_operand_lt (h : d ∈ c.operands) : sizeOf d.node < sizeOf c.node := by
  obtain ⟨name, -, hd⟩ := child_of_mem_operands h
  exact sizeOf_child?_lt hd

end

/-- The place of `d` goes into that of `c`: it is `c`, or an operand of such a node. -/
inductive Draws (c : Cursor) : Cursor → Prop where
  | refl : Draws c c
  | down {d e : Cursor} (hd : Draws c d) (he : e ∈ d.operands) : Draws c e

theorem Draws.trans {c d e : Cursor} (hd : c.Draws d) (he : d.Draws e) : c.Draws e := by
  induction he with
  | refl => exact hd
  | down _ hm ih => exact ih.down hm

theorem Draws.head {c d e : Cursor} (hd : d ∈ c.operands) (he : d.Draws e) : c.Draws e :=
  (Draws.refl.down hd).trans he

end Cursor

/-! ## Final places -/

namespace Locator

/-- Where settling leaves a text and its anchor, unless it ends in a fault. -/
def settled? (l : Locator) (role : Role) (text : Text × Anchor) : Option Placement :=
  let s := l.settle role text.1 text.2
  if s.fault.isNone then some { s.anchor with raw := some s.raw } else none

/-- The text from the start of one place to the end of another, at the line and column of the
first. -/
def between? (l : Locator) (p q : Placement) : Option (Text × Anchor) :=
  match p.span, q.span with
  | some first, some last =>
    let span : Span := ⟨first.start, last.stop⟩
    some (span.read l.source, { p.toAnchor with span := some span })
  | _, _ => none

end Locator

def Placement.text? (p : Placement) : Option (Text × Anchor) := p.raw.map fun raw => (raw, p.toAnchor)

namespace Locator

/-- Where a node ends up, if it can be placed. -/
def final? (l : Locator) (c : Cursor) : Option Placement :=
  match _h : c.rule with
  | .own raw => l.settled? c.role (raw, c.node.placement.toAnchor)
  | .bare => some c.node.placement
  | .negation operand => ((final? l operand).bind (·.text?)).bind (l.settled? c.role)
  | .operator left right =>
    ((final? l left).bind fun p => (final? l right).bind fun q => l.between? p q).bind
      (l.settled? c.role)
  | .stuck => none
termination_by sizeOf c.node
decreasing_by
  all_goals exact Cursor.sizeOf_operand_lt (by simp [Cursor.operands, _h, Cursor.Rule.operands])

/-- The text and the anchor that the settling of a node begins with. -/
def given? (l : Locator) (c : Cursor) : Option (Text × Anchor) :=
  match c.rule with
  | .own raw => some (raw, c.node.placement.toAnchor)
  | .negation operand => (l.final? operand).bind (·.text?)
  | .operator left right =>
    (l.final? left).bind fun p => (l.final? right).bind fun q => l.between? p q
  | .bare | .stuck => none

section
variable {l : Locator} {c : Cursor}

theorem final?_bare (h : c.rule = .bare) : l.final? c = some c.node.placement := by
  rw [final?]
  split <;> simp_all

/-- A node that does not stay bare ends up where its given text is settled. -/
theorem final?_of_not_bare (h : c.rule ≠ .bare) :
    l.final? c = (l.given? c).bind (l.settled? c.role) := by
  rw [final?, given?]
  split <;> simp_all

theorem final?_operator {left right : Cursor} (h : c.rule = .operator left right) :
    l.final? c = ((l.final? left).bind fun p => (l.final? right).bind fun q =>
      l.between? p q).bind (l.settled? c.role) := by
  rw [final?_of_not_bare (by rw [h]; simp), given?, h]

theorem final?_negation {d : Cursor} (h : c.rule = .negation d) :
    l.final? c = ((l.final? d).bind (·.text?)).bind (l.settled? c.role) := by
  rw [final?_of_not_bare (by rw [h]; simp), given?, h]

theorem final?_own {raw : Text} (h : c.rule = .own raw) :
    l.final? c = l.settled? c.role (raw, c.node.placement.toAnchor) := by
  rw [final?_of_not_bare (by rw [h]; simp), given?, h]
  rfl

theorem final?_stuck (h : c.rule = .stuck) : l.final? c = none := by
  rw [final?_of_not_bare (by rw [h]; simp), given?, h]
  rfl

end

/-! ## Operands with spans -/

/-- The node ends up at a place with a span. -/
def Spanned (l : Locator) (c : Cursor) : Prop := ∃ q span, l.final? c = some q ∧ q.span = some span

section
variable {l : Locator} {c : Cursor}

/-- An operator reaches from one operand to the other, so both have spans if it ends up anywhere. -/
theorem spanned_of_operator {left right : Cursor} (h : c.rule = .operator left right)
    (hc : l.final? c ≠ none) : l.Spanned left ∧ l.Spanned right := by
  rw [final?_operator h] at hc
  cases hp : l.final? left with
  | none => rw [hp] at hc; exact absurd rfl hc
  | some p =>
    cases hq : l.final? right with
    | none => rw [hp, hq] at hc; exact absurd rfl hc
    | some q =>
      rw [hp, hq] at hc
      simp only [Option.bind_some, between?] at hc
      split at hc
      · next first last hf hl => exact ⟨⟨p, first, hp, hf⟩, ⟨q, last, hq, hl⟩⟩
      · exact absurd rfl hc

theorem spanned_left {left right : Cursor} (h : c.rule = .operator left right)
    (hleft : l.Spanned left) : ∀ d, c.child? "left" = some d → l.Spanned d := by
  intro d hd
  obtain ⟨hchild, -⟩ := Cursor.children_of_operator h
  obtain rfl : d = left := Option.some.inj (hd.symm.trans hchild)
  exact hleft

/-- A node without text in the field `left` is no exception and no negated condition, so where it
ends up with a span it is an operator, and its own left operand has a span as well. -/
theorem operator_of_spanned (hraw : c.node.placement.raw = none) (hpath : c.isIn "condition" = false)
    (hc : l.Spanned c) : ∃ left right, c.rule = .operator left right ∧ l.Spanned left := by
  obtain ⟨q, span, hq, hspan⟩ := hc
  cases hr : c.rule with
  | own raw => rw [Cursor.rule_own.1 hr] at hraw; cases hraw
  | bare =>
    rw [final?_bare hr, Option.some.injEq] at hq
    subst hq
    rcases (Cursor.rule_bare.1 hr).2 with h | h
    · simp [Cursor.isImplicit, hspan] at h
    · simp [Cursor.isLoopGuard, hpath] at h
  | negation operand =>
    have := Cursor.isNegatedGuard_of_negation hr
    simp [Cursor.isNegatedGuard, hpath] at this
  | operator left right =>
    exact ⟨left, right, rfl, (spanned_of_operator hr (by rw [hq]; simp)).1⟩
  | stuck => rw [final?_stuck hr] at hq; cases hq

end

end Locator

end SyntaxSpans
