import SyntaxSpans.Proofs.Exactness
import SyntaxSpans.Proofs.Nesting
import SyntaxSpans.Proofs.WalkFault

/-!
# All or nothing

An annotation ends with the whole tree annotated, or in a fault. Two kinds of faults speak of the tree
and the source: a gap, and a bracket without a counterpart. All others are failures that nobody has
asked for, and each has its cause in the tree (`foreign_of_firstFault?`): a line that the source does not
have, a negated condition without an operand, or a pattern with something else where a node or a list
has to be.
-/

namespace SyntaxSpans

/-- The fault is one that an annotation is meant to end in: a gap, or a bracket without a counterpart. -/
def Fault.isAnnotationError : Fault → Bool
  | .gap _ _ _ _ => true
  | .bracket (.unmatched _ _) => true
  | .bracket (.unsupported _) | .bracket .outside => false
  | .noSuchLine _ | .missingOperand _ | .notNode | .notList => false

/-- The fault comes from a tree that no annotation is prepared for. -/
inductive Fault.Foreign (source : Text) (tree : Node) : Fault → Prop where
  /-- A node reports a line that the source does not have. -/
  | line {c : Cursor} {line : Int} (hc : (Cursor.root tree).Contains c)
    (hline : c.node.placement.line = some line)
    (hnone : (LineMap.ofText source).start? (line - 1) = none) : Foreign source tree (.noSuchLine line)
  /-- A negation without text is the condition of a conditional, and has no operand. -/
  | operand {c : Cursor} (hc : (Cursor.root tree).Contains c) (hguard : c.isNegatedGuard = true)
    (hraw : c.node.placement.raw = none) (hnone : c.child? "expression" = none) :
    Foreign source tree (.missingOperand "expression")
  /-- A node binds names by a pattern that is not sound. -/
  | pattern {c : Cursor} {fault : Fault} (hc : c ∈ (Cursor.root tree).preorder)
    (hfault : c.introduced.fault = some fault) : Foreign source tree fault

/-- Every node that the walk visits has a scope, and a span that reads its text unless it is exempt. -/
structure Annotated.Whole (source : Text) (a : Annotated) : Prop where
  inScope : ∀ c ∈ a.nodes, (a.scope? c).isSome = true
  exact : ∀ c ∈ a.nodes, ¬ c.Exempt → ∃ raw span, c.node.placement.raw = some raw ∧
    c.node.placement.span = some span ∧ span.read source = raw

/-! ## Where faults come from -/

namespace Locator

section
variable {l : Locator} {c : Cursor} {role : Role} {raw raw' : Text} {a a' : Anchor} {e : Fault}

theorem line_inset (a : Anchor) : a.inset.line = a.line := by
  unfold Anchor.inset
  split <;> rfl

theorem line_of_search (h : l.search raw a = .ok a') : a'.line = a.line := by
  rcases search_ok h with rfl | ⟨k, -, rfl, -⟩ <;> rfl

/-- A search fails only for a position on a line that there is not. -/
theorem search_error (h : l.search raw a = .error e) :
    ∃ line column, e = .noSuchLine line ∧ a.line = some line ∧ a.column = some column ∧
      l.lines.start? (line - 1) = none := by
  unfold search at h
  split at h
  · cases h
  · split at h
    · next line column hline hcolumn =>
      split at h
      · next hnone =>
        cases h
        refine ⟨line, column, rfl, hline, hcolumn, ?_⟩
        cases hstart : l.lines.start? (line - 1) with
        | none => rfl
        | some start => simp [LineMap.offset?, hstart] at hnone
      · split at h <;> cases h
    · cases h

theorem Settles.line (h : l.Settles role raw a raw' a') : a'.line = a.line := by
  induction h with
  | skipped _ _ => rfl
  | exact hsearch _ _ => exact line_of_search hsearch
  | inset hsearch _ _ _ ih => rw [ih, line_inset, line_of_search hsearch]
  | step _ _ _ => rfl
  | strip _ _ _ _ ih => exact ih

/-- **The faults of settling**: those of an annotation, and a line that there is not. -/
theorem settle_fault (h : (l.settle role raw a).fault = some e) : e.isAnnotationError = true ∨
    ∃ line, e = .noSuchLine line ∧ a.line = some line ∧ l.lines.start? (line - 1) = none := by
  have hbracket : ∀ {raw : Text} {b : Bracket.Error}, strip? raw = .error b →
      Fault.isAnnotationError (.bracket b) = true := fun hb => by
    rw [(strip?_eq_error_iff.1 hb).1]
    rfl
  -- a strip leaves the line alone, so that the line in the fault is the reported one
  fun_induction l.settle role raw a with
  | case1 | case4 | case6 => cases h
  | case2 raw a _ e' hsearch =>
    cases h
    obtain ⟨line, -, rfl, hline, -, hnone⟩ := search_error hsearch
    exact Or.inr ⟨line, rfl, hline, hnone⟩
  | case3 raw a _ a' _ _ b hb =>
    cases h
    exact Or.inl (hbracket hb)
  | case5 raw a _ a' hsearch _ inner _ ih =>
    rw [line_inset, line_of_search hsearch] at ih
    exact ih h
  | case7 raw a _ a' _ _ _ b hb =>
    cases h
    exact Or.inl (hbracket hb)
  | case8 =>
    cases h
    exact Or.inl rfl
  | case9 raw a _ a' hsearch _ _ inner _ ih =>
    rw [line_of_search hsearch] at ih
    exact ih h

mutual

/-- The fault of a node is the own fault of a node at or below it. -/
theorem exists_ownFault? {c : Cursor} (h : l.fault? c = some e) :
    ∃ d, c.Contains d ∧ l.ownFault? d = some e := by
  cases hr : c.rule with
  | own _ | bare | stuck =>
    rw [fault?_of_operands (by rw [Cursor.operands, hr]; rfl)] at h
    exact ⟨c, .refl, h⟩
  | negation operand =>
    have hchild := Cursor.child_of_negation hr
    have := Cursor.sizeOf_child?_lt hchild
    rw [fault?_negation hr, Option.or_eq_some_iff] at h
    rcases h with h | ⟨-, h⟩
    · obtain ⟨d, hd, hown⟩ := exists_ownFault? h
      exact ⟨d, (Cursor.Contains.refl.child hchild).trans hd, hown⟩
    · exact ⟨c, .refl, h⟩
  | operator left right =>
    obtain ⟨hleft, hright⟩ := Cursor.children_of_operator hr
    have := Cursor.sizeOf_child?_lt hleft
    have := Cursor.sizeOf_child?_lt hright
    rw [fault?_operator hr] at h
    simp only [Option.or_eq_some_iff] at h
    rcases h with h | ⟨-, h | ⟨-, h | ⟨-, h⟩⟩⟩
    · exact exists_ownFault?_of_chain h
    · obtain ⟨d, hd, hown⟩ := exists_ownFault? h
      exact ⟨d, (Cursor.Contains.refl.child hleft).trans hd, hown⟩
    · obtain ⟨d, hd, hown⟩ := exists_ownFault? h
      exact ⟨d, (Cursor.Contains.refl.child hright).trans hd, hown⟩
    · exact ⟨c, .refl, h⟩
termination_by (sizeOf c.node, 1)

theorem exists_ownFault?_of_chain {c : Cursor} (h : l.chainFault? c = some e) :
    ∃ d, c.Contains d ∧ l.ownFault? d = some e := by
  rw [chainFault?] at h
  split at h
  · cases h
  · next left hleft =>
    have := Cursor.sizeOf_child?_lt hleft
    split at h
    · have hbelow : ∃ d, left.Contains d ∧ l.ownFault? d = some e := by
        rcases Option.or_eq_some_iff.1 h with h | ⟨-, h⟩
        · exact exists_ownFault?_of_chain h
        · exact exists_ownFault? h
      obtain ⟨d, hd, hown⟩ := hbelow
      exact ⟨d, (Cursor.Contains.refl.child hleft).trans hd, hown⟩
    · cases h
termination_by (sizeOf c.node, 0)

end

mutual

/-- The line of a final place is one that a node at or below it reports. -/
theorem line_of_final? {c : Cursor} {q : Placement} {line : Int} (h : l.final? c = some q)
    (hline : q.line = some line) : ∃ d, c.Contains d ∧ d.node.placement.line = some line := by
  rcases settles_of_final? h with ⟨-, rfl⟩ | ⟨text, raw, hgiven, -, hsettles⟩
  · exact ⟨c, .refl, hline⟩
  · exact line_of_given? hgiven (hsettles.line ▸ hline)
termination_by (sizeOf c.node, 1)

theorem line_of_given? {c : Cursor} {text : Text × Anchor} {line : Int}
    (h : l.given? c = some text) (hline : text.2.line = some line) :
    ∃ d, c.Contains d ∧ d.node.placement.line = some line := by
  unfold given? at h
  split at h
  · cases h
    exact ⟨c, .refl, hline⟩
  · next operand hr =>
    have hchild := Cursor.child_of_negation hr
    have := Cursor.sizeOf_child?_lt hchild
    obtain ⟨q, hq, htext⟩ := Option.bind_eq_some_iff.1 h
    obtain ⟨raw, -, rfl⟩ := Option.map_eq_some_iff.1 htext
    obtain ⟨d, hd, hline⟩ := line_of_final? hq hline
    exact ⟨d, (Cursor.Contains.refl.child hchild).trans hd, hline⟩
  · next left right hr =>
    have hleft := (Cursor.children_of_operator hr).1
    have := Cursor.sizeOf_child?_lt hleft
    obtain ⟨p, hp, h⟩ := Option.bind_eq_some_iff.1 h
    obtain ⟨q, -, h⟩ := Option.bind_eq_some_iff.1 h
    unfold between? at h
    split at h
    · cases h
      obtain ⟨d, hd, hline⟩ := line_of_final? hp hline
      exact ⟨d, (Cursor.Contains.refl.child hleft).trans hd, hline⟩
    · cases h
  · cases h
  · cases h
termination_by (sizeOf c.node, 0)

end

end

end Locator

/-- A node that no rule is for has no text, and a negated condition among them has no operand. -/
theorem Cursor.of_rule_stuck {c : Cursor} (h : c.rule = .stuck) : c.node.placement.raw = none ∧
    (c.isNegatedGuard = true → c.child? "expression" = none) := by
  unfold rule at h
  split at h
  · cases h
  · next hraw =>
    refine ⟨hraw, fun hguard => ?_⟩
    split at h
    · cases h
    · split at h
      · cases h
      · next hnone => exact hnone

section
variable {source : Text} {window : Window} {tree : Node} {fault : Fault}

theorem foreign_of_ownFault? {d : Cursor} (hd : (Cursor.root tree).Contains d)
    (h : (Locator.ofSource source window).ownFault? d = some fault) :
    fault.isAnnotationError = true ∨ fault.Foreign source tree := by
  unfold Locator.ownFault? at h
  split at h
  · next text hgiven =>
    rcases Locator.settle_fault h with hmeant | ⟨line, rfl, hline, hnone⟩
    · exact Or.inl hmeant
    · obtain ⟨e, he, hline⟩ := Locator.line_of_given? hgiven hline
      exact Or.inr (.line (hd.trans he) hline hnone)
  · unfold Cursor.unplaced? at h
    split at h
    · cases h
    · cases h
    · cases h
      exact Or.inl rfl
    · cases h
      exact Or.inl rfl
    · next hr =>
      obtain ⟨hraw, hnone⟩ := Cursor.of_rule_stuck hr
      cases hguard : d.isNegatedGuard with
      | true =>
        rw [hguard, if_pos rfl] at h
        cases h
        exact Or.inr (.operand hd hguard hraw (hnone hguard))
      | false =>
        rw [hguard, if_neg Bool.false_ne_true] at h
        cases h
        exact Or.inl rfl

/-- **The fault of a walk** is an annotation error, or foreign. -/
theorem foreign_of_firstFault? (h : (Locator.ofSource source window).firstFault? tree = some fault) :
    fault.isAnnotationError = true ∨ fault.Foreign source tree := by
  obtain ⟨c, hc, hvisit⟩ := List.exists_of_findSome?_eq_some h
  rcases Option.or_eq_some_iff.1 hvisit with hpattern | ⟨-, hfault⟩
  · exact Or.inr (.pattern hc hpattern)
  · obtain ⟨d, hd, hown⟩ := Locator.exists_ownFault? hfault
    exact foreign_of_ownFault? ((Cursor.contains_of_mem_preorder hc).trans hd) hown

theorem whole_of_ok {a : Annotated} (h : annotate source window tree = .ok a) : a.Whole source := by
  constructor
  · intro c' hc'
    rw [nodes_eq h] at hc'
    obtain ⟨c, hc, rfl⟩ := List.mem_map.1 hc'
    have hstart := Annotation.midway_start (.ofSource source window) tree
    have hpass := Annotation.pass_outcome hstart
    exact (hpass.of_ok (annotate_ok.1 h).1).1.inScope c hc
  · intro c' hc' hx
    rw [nodes_eq h] at hc'
    obtain ⟨c, hc, rfl⟩ := List.mem_map.1 hc'
    obtain ⟨-, raw, -, hraw, -, hreads⟩ := settles_of_not_exempt h hc hx
    obtain ⟨span, hspan, hread⟩ := Locator.span_of_reads hreads
    rw [Progress.placement_placed]
    exact ⟨raw, span, hraw, hspan, hread⟩

/-- **All or nothing**: an annotation ends with the whole tree annotated or in an annotation error just
where the first fault of the walk, if there is one, is an annotation error. Any other first fault comes
from a line that the source does not have, a negated condition without an operand, or an unsound
pattern. -/
theorem all_or_nothing_iff :
    (((∃ a, annotate source window tree = .ok a ∧ a.Whole source) ∨
        ∃ fault, annotate source window tree = .error fault ∧ fault.isAnnotationError = true) ↔
      ∀ fault, (Locator.ofSource source window).firstFault? tree = some fault →
        fault.isAnnotationError = true) ∧
    ∀ fault, (Locator.ofSource source window).firstFault? tree = some fault →
      fault.isAnnotationError = false → fault.Foreign source tree := by
  refine ⟨⟨?_, fun h => ?_⟩, fun fault h hforeign => ?_⟩
  · rintro (⟨a, ha, -⟩ | ⟨e, he, hmeant⟩) fault hfault
    · rw [firstFault?_of_ok ha] at hfault
      cases hfault
    · rw [annotate_error_iff.1 he, Option.some.injEq] at hfault
      exact hfault ▸ hmeant
  · cases ha : annotate source window tree with
    | ok a => exact Or.inl ⟨a, rfl, whole_of_ok ha⟩
    | error e => exact Or.inr ⟨e, rfl, h e (annotate_error_iff.1 ha)⟩
  · rcases foreign_of_firstFault? h with hmeant | hcause
    · rw [hforeign] at hmeant
      cases hmeant
    · exact hcause

end

/-- A name on the fifth line. -/
def Node.farDown : Node :=
  .mk "Identifier" { raw := some ['a'], line := some 5, column := some 1 } []

/-- A conditional whose condition negates nothing. -/
def Node.negatesNothing : Node :=
  .mk "Conditional" { raw := some ['a'], line := some 1, column := some 1 }
    [("condition", .node (.mk "LogicalNotOp" {} []))]

def Node.parametrized (parameters : Value) : Node :=
  .mk "Function" { raw := some ['a'], line := some 1, column := some 1 } [("parameters", parameters)]

/-- Annotations of a source of one line that end in neither way. -/
theorem not_all_or_nothing :
    annotate ['a'] .standard .farDown = .error (.noSuchLine 5) ∧
    annotate ['a'] .standard .negatesNothing = .error (.missingOperand "expression") ∧
    annotate ['a'] .standard (.parametrized (.list [.scalar (.str "x")])) = .error .notNode ∧
    annotate ['a'] .standard (.parametrized (.scalar (.int 5))) = .error .notList ∧
    ∀ fault ∈ [.noSuchLine 5, .missingOperand "expression", .notNode, .notList],
      Fault.isAnnotationError fault = false := by
  obtain ⟨l, hl⟩ : ∃ l, l = Locator.ofSource ['a'] .standard := ⟨_, rfl⟩
  refine ⟨?_, ?_, annotate_unsound_root rfl, annotate_unsound_root rfl, by decide⟩
  · rw [annotate_error_iff, ← hl, Locator.firstFault?, Cursor.preorder_leaf rfl,
      List.findSome?_singleton, Locator.visitFault?_of_operands rfl rfl, hl]
    decide +kernel
  · have hchildren : (Cursor.root .negatesNothing).children =
        [⟨.mk "LogicalNotOp" {} [], [⟨"condition", []⟩], some "Conditional"⟩] := rfl
    have hroot : l.visitFault? (.root .negatesNothing) = none := by
      rw [Locator.visitFault?_of_operands rfl rfl, hl]
      decide +kernel
    rw [annotate_error_iff, ← hl, Locator.firstFault?,
      Cursor.preorder_of_leaves (by rw [hchildren]; decide), List.findSome?_cons, hroot, hchildren,
      List.findSome?_singleton, Locator.visitFault?_of_operands rfl rfl, hl]
    rfl

end SyntaxSpans
