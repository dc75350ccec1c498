import SyntaxSpans.Proofs.Bounds
import SyntaxSpans.Proofs.Changes
import SyntaxSpans.Proofs.Stripping

/-!
# Trees of operators

An operator without text reaches from the first of its operands' texts to the last one, however deep the
operators nest on either side. The text between these two ends is settled like any other, and it may begin
with a parenthesis; but the operand that it begins with has been settled before, so that parenthesis has
its counterpart inside the operand, and nothing is taken off the operator (`strip?_of_prefix`).
-/

namespace SyntaxSpans

/-! ## Texts that begin with a settled text -/

section
variable {raw longer : Text}

/-- If no pair of parentheses wraps a text then none wraps a longer one that begins with it. -/
theorem strip?_of_prefix (h : strip? raw = .ok none) (hne : raw ≠ []) (hbegins : raw <+: longer) :
    strip? longer = .ok none := by
  obtain ⟨c, rest, rfl⟩ := List.exists_cons_of_ne_nil hne
  obtain ⟨more, rfl⟩ := hbegins
  -- the parenthesis that the text begins with is closed inside it
  have hcloses : c = '(' → ¬ Bracket.round.StaysIn 1 rest := by
    rintro rfl hstays
    rw [strip?_eq_error_iff.2 ⟨rfl, rest, rfl, hstays⟩] at h
    cases h
  cases hs : strip? (c :: rest ++ more) with
  | error e =>
    obtain ⟨-, rest', heq, hstays⟩ := strip?_eq_error_iff.1 hs
    obtain ⟨rfl, rfl⟩ := List.cons.inj heq
    exact absurd (fun p hp => hstays p (hp.trans (List.prefix_append _ _))) (hcloses rfl)
  | ok inner? =>
    cases inner? with
    | none => rfl
    | some inner =>
      obtain ⟨heq, hbalanced⟩ := strip?_eq_some_iff.1 hs
      obtain ⟨rfl, hrest⟩ := List.cons.inj (List.cons_append ▸ heq)
      rcases List.prefix_concat_iff.1 (⟨more, hrest⟩ : rest <+: inner ++ [')']) with rfl | hin
      · rw [strip?_eq_some_iff.2 ⟨rfl, hbalanced⟩] at h
        cases h
      · exact absurd (fun p hp => (Bracket.balanced_iff.1 hbalanced).1 p (hp.trans hin)) (hcloses rfl)

theorem slice_prefix {α : Type} (xs : List α) (start : Int) {stop stop' : Int} (h0 : 0 ≤ stop)
    (hle : stop ≤ stop') : slice xs start stop <+: slice xs start stop' := by
  have hcut : cut xs.length stop ≤ cut xs.length stop' := by
    rw [Span.cut_eq_min h0, Span.cut_eq_min (by omega)]
    omega
  exact List.IsPrefix.drop (List.take_prefix_take_left hcut) _

end

/-! ## Operator trees -/

namespace Cursor

/-- A tree of operators without text, over operands that were reported with a text and without a
span. -/
inductive OperatorTree : Cursor → Prop where
  | operand {c : Cursor} {raw : Text} (text : c.node.placement.raw = some raw)
    (span : c.node.placement.span = none) : OperatorTree c
  | operator {c left right : Cursor} (text : c.node.placement.raw = none)
    (concat : c.kind ≠ "ConcatOp") (negation : c.kind ≠ "LogicalNotOp")
    (guard : c.isLoopGuard = false) (hleft : c.child? "left" = some left)
    (hright : c.child? "right" = some right) (left : OperatorTree left)
    (right : OperatorTree right) : OperatorTree c

/-- The operands of a tree of operators, from left to right. -/
def leaves (c : Cursor) : List Cursor :=
  match _h : c.rule with
  | .operator left right => left.leaves ++ right.leaves
  | _ => [c]
termination_by sizeOf c.node
decreasing_by
  all_goals exact sizeOf_operand_lt (by simp [operands, _h, Rule.operands])

section
variable {c d left right : Cursor}

theorem leaves_operator (h : c.rule = .operator left right) :
    c.leaves = left.leaves ++ right.leaves := by
  rw [leaves]
  split
  · next heq =>
    rw [h] at heq
    cases heq
    rfl
  · next hnot => exact absurd h (hnot _ _)

theorem leaves_of_not_operator (h : ∀ left right, c.rule ≠ .operator left right) : c.leaves = [c] := by
  rw [leaves]
  split
  · next heq => exact absurd heq (h _ _)
  · rfl

theorem rule_operator (text : c.node.placement.raw = none) (concat : c.kind ≠ "ConcatOp")
    (negation : c.kind ≠ "LogicalNotOp") (guard : c.isLoopGuard = false)
    (hleft : c.child? "left" = some left) (hright : c.child? "right" = some right) :
    c.rule = .operator left right := by
  simp [rule, isImplicit, isNegatedGuard, text, concat, negation, guard, hleft, hright]

theorem raw_of_operator (h : c.rule = .operator left right) : c.node.placement.raw = none := by
  cases hraw : c.node.placement.raw with
  | none => rfl
  | some raw =>
    rw [rule_own.2 hraw] at h
    cases h

theorem draws_iff : c.Draws d ↔ d = c ∨ ∃ e ∈ c.operands, e.Draws d := by
  constructor
  · intro h
    induction h with
    | refl => exact Or.inl rfl
    | down _ he ih =>
      rcases ih with rfl | ⟨e, hmem, hdraw⟩
      · exact Or.inr ⟨_, he, .refl⟩
      · exact Or.inr ⟨e, hmem, hdraw.down he⟩
  · rintro (rfl | ⟨e, hmem, hdraw⟩)
    · exact .refl
    · exact .head hmem hdraw

theorem draws_operator (h : c.rule = .operator left right) :
    c.Draws d ↔ d = c ∨ left.Draws d ∨ right.Draws d := by
  rw [draws_iff, operands_operator h]
  simp

theorem draws_own {raw : Text} (h : c.rule = .own raw) : c.Draws d ↔ d = c := by
  rw [draws_iff, operands_own h]
  simp

end

end Cursor

/-! ## Settled operands -/

namespace Locator

/-- The place has a text, which is not empty and stands where its span says, and no parentheses wrap
all of it. -/
structure Unwrapped (l : Locator) (q : Placement) (raw : Text) (s : Span) : Prop where
  text : q.raw = some raw
  span : q.span = some s
  reads : s.read l.source = raw
  ne_nil : raw ≠ []
  unwrapped : strip? raw = .ok none
  start_nonneg : 0 ≤ s.start
  stop_nonneg : 0 ≤ s.stop

section
variable {l : Locator} {c left right : Cursor} {role : Role} {raw : Text} {a : Anchor}
  {p q : Placement} {s t : Span}

/-- Settling a text that stands where its span says, with no parentheses around it, changes nothing and
records nothing. -/
theorem settle_of_reads (hreads : l.reads a.span raw = true) (hstrip : strip? raw = .ok none) :
    l.settle role raw a = ⟨raw, a, [], none⟩ := by
  obtain ⟨s, hs, -⟩ := span_of_reads hreads
  rw [settle, if_neg (by simp [hs]), search_of_reads hreads]
  simp only [hreads, if_true]
  split
  · next e he =>
    rw [hstrip] at he
    cases he
  · rfl
  · next inner hinner =>
    rw [hstrip] at hinner
    cases hinner

theorem settled?_of_settle {raw' : Text} {a' : Anchor} {records : List Record}
    (h : l.settle role raw a = ⟨raw', a', records, none⟩) :
    l.settled? role (raw, a) = some { a' with raw := some raw' } := by
  simp [settled?, h]

theorem unwrapped_operand (htext : c.node.placement.raw = some raw) (hnone : c.node.placement.span = none)
    (hstep : c.isIn "step" = false) (hq : l.final? c = some q) (hspan : q.span = some s)
    (hne : q.raw ≠ some []) : ∃ raw', l.Unwrapped q raw' s := by
  have hrule := Cursor.rule_own.2 htext
  rcases settles_of_final? hq with ⟨hbare, -⟩ | ⟨text, raw', hgiven, hraw', hsettles⟩
  · rw [hrule] at hbare
    cases hbare
  obtain rfl : (raw, c.node.placement.toAnchor) = text := by
    rw [given?, hrule] at hgiven
    exact Option.some.inj hgiven
  have hne' : raw' ≠ [] := fun h => hne (h ▸ hraw')
  cases hsettles.atRest with
  | skipped hspan' _ =>
    rw [hspan] at hspan'
    cases hspan'
  | step htrue _ _ =>
    rw [Cursor.role, hstep] at htrue
    cases htrue
  | exact hreads hstrip =>
    obtain ⟨s', hs', hfound | ⟨m, hgiven', -⟩⟩ := hsettles.span hreads
    · obtain rfl : s = s' := Option.some.inj (hspan.symm.trans hs')
      obtain ⟨s'', hs'', hread⟩ := span_of_reads hreads
      obtain rfl : s = s'' := Option.some.inj (hspan.symm.trans hs'')
      exact ⟨raw', hraw', hspan, hread, hne', hstrip, hfound.1, by omega⟩
    · rw [hnone] at hgiven'
      cases hgiven'

/-- **An operator reaches from its left operand to its right one.** Nothing is taken off it unless
parentheses wrap all of that. -/
theorem final?_operator_of_strip (hr : c.rule = .operator left right) (hp : l.final? left = some p)
    (hq : l.final? right = some q) (hs : p.span = some s) (ht : q.span = some t)
    (hstrip : strip? ((⟨s.start, t.stop⟩ : Span).read l.source) = .ok none) :
    let span : Span := ⟨s.start, t.stop⟩
    l.final? c = some { p with raw := some (span.read l.source), span := some span } ∧
      l.records c = [] := by
  intro span
  have hgiven : l.given? c = some (span.read l.source, { p.toAnchor with span := some span }) := by
    simp only [given?, hr, hp, hq, Option.bind_some, between?, hs, ht]
    rfl
  have hreads : l.reads ({ p.toAnchor with span := some span } : Anchor).span (span.read l.source) := by
    simp [reads]
  constructor
  · rw [final?_of_not_bare (by rw [hr]; simp), hgiven, Option.bind_some,
      settled?_of_settle (settle_of_reads hreads hstrip)]
  · rw [records_of_given hgiven, settle_of_reads hreads hstrip]

/-- Nothing is taken off an operator whose left operand is settled and ends no later than the right
one, and then it is settled like that. -/
theorem unwrapped_operator (hr : c.rule = .operator left right) (hp : l.final? left = some p)
    (hq : l.final? right = some q) (hleft : l.Unwrapped p raw s) (ht : q.span = some t)
    (hordered : s.stop ≤ t.stop) :
    let span : Span := ⟨s.start, t.stop⟩
    l.final? c = some { p with raw := some (span.read l.source), span := some span } ∧
      l.records c = [] ∧
      l.Unwrapped { p with raw := some (span.read l.source), span := some span }
        (span.read l.source) span := by
  intro span
  have hbegins : raw <+: span.read l.source :=
    hleft.reads ▸ slice_prefix l.source s.start hleft.stop_nonneg hordered
  have hstrip := strip?_of_prefix hleft.unwrapped hleft.ne_nil hbegins
  obtain ⟨hfinal, hrecords⟩ := final?_operator_of_strip hr hp hq hleft.span ht hstrip
  refine ⟨hfinal, hrecords, rfl, rfl, rfl, fun hnil => ?_, hstrip, hleft.start_nonneg, ?_⟩
  · rw [hnil, List.prefix_nil] at hbegins
    exact hleft.ne_nil hbegins
  · exact Int.le_trans hleft.stop_nonneg hordered

end

end Locator

/-! ## Spans of operator trees -/

section
variable {l : Locator} {c : Cursor} {place : Cursor → Placement}

/-- Where `place` puts a tree of operators, it begins with the first of its leaves, ends with the last
one, and reads the source between them. -/
def SpansLeaves (source : Text) (place : Cursor → Placement) (c : Cursor) : Prop :=
  ∃ first last s t, c.leaves.head? = some first ∧ c.leaves.getLast? = some last ∧
    (place first).span = some s ∧ (place last).span = some t ∧ place c = { (place first) with
      raw := some (slice source s.start t.stop)
      span := some ⟨s.start, t.stop⟩ }

/-- The ends of a settled operand are those of its first and its last leaf. -/
structure Ends (l : Locator) (place : Cursor → Placement) (c : Cursor) (span : Span) : Prop where
  unwrapped : ∃ raw, l.Unwrapped (place c) raw span
  first : ∃ first s, c.leaves.head? = some first ∧ (place first).span = some s ∧
    s.start = span.start ∧ (place first).line = (place c).line ∧
    (place first).column = (place c).column
  last : ∃ last t, c.leaves.getLast? = some last ∧ (place last).span = some t ∧ t.stop = span.stop

/-- **An operator over settled operands** reaches from the first leaf of the left one to the last leaf of
the right one, and nothing is recorded at it. -/
theorem Ends.operator {left right : Cursor} (hr : c.rule = .operator left right)
    (hc : l.final? c = some (place c)) (hp : l.final? left = some (place left))
    (hq : l.final? right = some (place right))
    (hleft : ∀ s, (place left).span = some s → Ends l place left s)
    (hright : ∀ t, (place right).span = some t → Ends l place right t)
    (hordered : ∀ s t, (place left).span = some s → (place right).span = some t → s.stop ≤ t.stop) :
    (∀ span, (place c).span = some span → Ends l place c span) ∧
      SpansLeaves l.source place c ∧ l.records c = [] := by
  have happend := Cursor.leaves_operator hr
  -- both operands have spans, because the operator has a place
  obtain ⟨⟨p, s, hp', hs⟩, ⟨q, t, hq', ht⟩⟩ := Locator.spanned_of_operator hr (by rw [hc]; simp)
  obtain rfl : place left = p := Option.some.inj (hp.symm.trans hp')
  obtain rfl : place right = q := Option.some.inj (hq.symm.trans hq')
  obtain ⟨⟨raw, hunwrapped⟩, ⟨first, s', hfirst, hs', hstart, hline, hcolumn⟩, -⟩ := hleft s hs
  obtain ⟨-, -, ⟨last, t', hlast, ht', hstop⟩⟩ := hright t ht
  obtain ⟨hfinal, hrecords, hrest⟩ :=
    Locator.unwrapped_operator hr hp hq hunwrapped ht (hordered s t hs ht)
  have hself := Option.some.inj (hc.symm.trans hfinal)
  have hhead : c.leaves.head? = some first := by simp [happend, List.head?_append, hfirst]
  have hgetLast : c.leaves.getLast? = some last := by simp [happend, List.getLast?_append, hlast]
  refine ⟨fun span hspan => ?_, ⟨first, last, s', t', hhead, hgetLast, hs', ht', ?_⟩, hrecords⟩
  · rw [hself, Option.some.injEq] at hspan
    subst hspan
    exact ⟨⟨_, hself ▸ hrest⟩, ⟨first, s', hhead, hs', hstart, by rw [hself, hline],
      by rw [hself, hcolumn]⟩, ⟨last, t', hgetLast, ht', hstop⟩⟩
  · simp only [hself, hstart, hstop, hline, hcolumn]
    rfl

/-- **Operators span their leaves**, and nothing is recorded at them. -/
theorem spansLeaves_of_operatorTree (htree : c.OperatorTree)
    (hplace : ∀ d, c.Draws d → l.final? d = some (place d))
    (hleaves : ∀ d ∈ c.leaves, (place d).raw ≠ some [])
    (hordered : ∀ d left right, c.Draws d → d.rule = .operator left right →
      ∀ s t, (place left).span = some s → (place right).span = some t → s.stop ≤ t.stop) :
    (c.isIn "step" = false → ∀ span, (place c).span = some span → Ends l place c span) ∧
    ∀ d, c.Draws d → d.node.placement.raw = none →
      SpansLeaves l.source place d ∧ l.records d = [] := by
  induction htree with
  | @operand c raw text hnone =>
    have hrule := Cursor.rule_own.2 text
    have hself : c.leaves = [c] := Cursor.leaves_of_not_operator (by simp [hrule])
    refine ⟨fun hstep span hspan => ?_, fun d hd hraw => ?_⟩
    · have hne : (place c).raw ≠ some [] := hleaves c (by simp [hself])
      exact ⟨Locator.unwrapped_operand text hnone hstep (hplace c .refl) hspan hne,
        ⟨c, span, by simp [hself], hspan, rfl, rfl, rfl⟩, ⟨c, span, by simp [hself], hspan, rfl⟩⟩
    · obtain rfl := (Cursor.draws_own hrule).1 hd
      rw [text] at hraw
      cases hraw
  | @operator c left right text concat negation guard hchildLeft hchildRight _ _ ihLeft ihRight =>
    have hrule := Cursor.rule_operator text concat negation guard hchildLeft hchildRight
    have hops := Cursor.operands_operator hrule
    have hdrawLeft : ∀ d, left.Draws d → c.Draws d := fun d => .head (by simp [hops])
    have hdrawRight : ∀ d, right.Draws d → c.Draws d := fun d => .head (by simp [hops])
    have happend := Cursor.leaves_operator hrule
    obtain ⟨hendsLeft, hbelowLeft⟩ := ihLeft (fun d hd => hplace d (hdrawLeft d hd))
      (fun d hd => hleaves d (by rw [happend]; exact List.mem_append_left _ hd))
      fun d a b hd => hordered d a b (hdrawLeft d hd)
    obtain ⟨hendsRight, hbelowRight⟩ := ihRight (fun d hd => hplace d (hdrawRight d hd))
      (fun d hd => hleaves d (by rw [happend]; exact List.mem_append_right _ hd))
      fun d a b hd => hordered d a b (hdrawRight d hd)
    have hstepLeft : left.isIn "step" = false := by
      simp [Cursor.isIn, Cursor.path_of_child? hchildLeft]
    have hstepRight : right.isIn "step" = false := by
      simp [Cursor.isIn, Cursor.path_of_child? hchildRight]
    -- the ends of the operator are the first end of the left operand and the last end of the right one
    obtain ⟨hends, hself⟩ := Ends.operator hrule (hplace c .refl)
      (hplace left (hdrawLeft left .refl)) (hplace right (hdrawRight right .refl))
      (hendsLeft hstepLeft) (hendsRight hstepRight) (hordered c left right .refl hrule)
    refine ⟨fun _ => hends, fun d hd hraw => ?_⟩
    rcases (Cursor.draws_operator hrule).1 hd with rfl | hd | hd
    · exact hself
    · exact hbelowLeft d hd hraw
    · exact hbelowRight d hd hraw

/-- Of a tree of operators, what its leaves record is recorded, if nothing is recorded at its operators. -/
theorem records_pending {r : Cursor} {p : Progress} (htree : c.OperatorTree) (hc : r.Contains c)
    (hp : p.Pristine r)
    (hrecords : ∀ d, c.Draws d → d.node.placement.raw = none → l.records d = []) :
    (p.pending c).flatMap l.records = c.leaves.flatMap l.records := by
  induction htree with
  | @operand c raw text _ =>
    have hrule := Cursor.rule_own.2 text
    rw [Progress.pending_of_unresolved (hp c hc).2, Cursor.operands_own hrule,
      Cursor.leaves_of_not_operator (by simp [hrule])]
    rfl
  | @operator c left right text concat negation guard hchildLeft hchildRight _ _ ihLeft ihRight =>
    have hrule := Cursor.rule_operator text concat negation guard hchildLeft hchildRight
    have hops := Cursor.operands_operator hrule
    have hleft := ihLeft (hc.child hchildLeft) fun d hd => hrecords d (.head (by simp [hops]) hd)
    have hright := ihRight (hc.child hchildRight) fun d hd => hrecords d (.head (by simp [hops]) hd)
    rw [Progress.pending_of_unresolved (hp c hc).2, hops, Cursor.leaves_operator hrule]
    simp [List.flatMap_append, List.flatMap_cons, hleft, hright, hrecords c .refl text]

/-- **Where a tree of operators ends up**: if it can be resolved from its root, no leaf is left empty, and
at no operator the right operand ends before the left one, then every operator begins where the first of
its leaves does, ends where the last one does, and has the source between them for its text. Parentheses
are taken off leaves only. -/
theorem operator_spans {r : Cursor} {p p' : Progress} (hp : p.Pristine r) (hc : r.Contains c)
    (hl : c.path = [] ∨ (p.mark c).linked = true) (htree : c.OperatorTree)
    (hrun : l.resolve c p = .ok () p')
    (hleaves : ∀ d ∈ c.leaves, (p'.mark d).placement.raw ≠ some [])
    (hordered : ∀ d left right, c.Draws d → d.node.placement.raw = none →
      d.child? "left" = some left → d.child? "right" = some right →
      ∀ s t, (p'.mark left).placement.span = some s → (p'.mark right).placement.span = some t →
        s.stop ≤ t.stop) :
    (∀ d, c.Draws d → d.node.placement.raw = none →
      SpansLeaves l.source (fun e => (p'.mark e).placement) d) ∧
    p'.log = p.log ++ c.leaves.flatMap l.records := by
  have hplace : ∀ d, c.Draws d → l.final? d = some (p'.mark d).placement := fun d hd =>
    hp.placed hc hl hrun hd
  have hops : ∀ d left right, c.Draws d → d.rule = .operator left right →
      ∀ s t, (p'.mark left).placement.span = some s → (p'.mark right).placement.span = some t →
        s.stop ≤ t.stop := fun d left right hd hr => by
    obtain ⟨hleft, hright⟩ := Cursor.children_of_operator hr
    exact hordered d left right hd (Cursor.raw_of_operator hr) hleft hright
  obtain ⟨-, hspans⟩ := spansLeaves_of_operatorTree htree hplace hleaves hops
  refine ⟨fun d hd hraw => (hspans d hd hraw).1, ?_⟩
  have hfaithful := (Progress.Midway.start (l := l) hp).faithful
  rw [((Locator.resolve_changes hc hl (by simp) hfaithful).of_ok hrun).log,
    records_pending htree hc hp fun d hd hraw => (hspans d hd hraw).2]

end

/-- A text that begins and ends with parentheses, but not with those of one pair. -/
def Text.application : Text := ['(', 'f', ')', '(', 'x', ')']

def Node.application : Node :=
  .mk "FunctionApplication" { raw := some .application, line := some 1, column := some 1 } []

def Placement.application : Placement :=
  { raw := some .application, span := some ⟨0, 6⟩, line := some 1, column := some 1 }

/-- The application is found where it is reported, and keeps its parentheses. -/
theorem Locator.final?_application {l : Locator} {c : Cursor} (hc : c.node = .application)
    (hsearch : l.search .application { line := some 1, column := some 1 } =
      .ok Placement.application.toAnchor)
    (h : l.Unwrapped .application .application ⟨0, 6⟩) : l.final? c = some .application := by
  have hrule : c.rule = .own .application := Cursor.rule_own.2 (by rw [hc]; rfl)
  have hkind : c.role.kind ≠ "ConcatOp" := by
    rw [show c.role.kind = c.node.kind from rfl, hc]
    decide
  have hreads : l.reads Placement.application.span .application = true := by
    simp [reads, Placement.application, h.reads]
  have hsettle : l.settle c.role .application { line := some 1, column := some 1 } =
      ⟨.application, Placement.application.toAnchor, [], none⟩ :=
    (settle_of_search (fun _ => hkind) hsearch hreads).trans (settle_of_reads hreads h.unwrapped)
  rw [final?_own hrule, hc]
  exact settled?_of_settle hsettle

/-- A sum without text that begins with the application. -/
def Node.appliedSum : Node :=
  .mk "PlusOp" {} [("left", .node .application), ("right", .node (.identifier 'b' 8))]

/-- The sum `(f)(x)+b+c`, as it is reported. -/
def Node.appliedSums : Node :=
  .mk "PlusOp" {} [("left", .node .appliedSum), ("right", .node (.identifier 'c' 10))]

def Text.appliedSums : Text := .application ++ ['+', 'b', '+', 'c']

namespace AppliedSums

def locator : Locator := .ofSource .appliedSums .standard

def outer : Cursor := .root .appliedSums

/-- The sum that it begins with. -/
def innermost : Cursor := ⟨.appliedSum, [⟨"left", []⟩], some "PlusOp"⟩

def application : Cursor := ⟨.application, [⟨"left", []⟩, ⟨"left", []⟩], some "PlusOp"⟩

def middle : Cursor := ⟨.identifier 'b' 8, [⟨"right", []⟩, ⟨"left", []⟩], some "PlusOp"⟩

def last : Cursor := ⟨.identifier 'c' 10, [⟨"right", []⟩], some "PlusOp"⟩

theorem rule_outer : outer.rule = .operator innermost last := rfl

theorem rule_innermost : innermost.rule = .operator application middle := rfl

theorem operatorTree : outer.OperatorTree := by
  refine .operator rfl (by decide) (by decide) rfl rfl rfl ?_ (.operand rfl rfl)
  exact .operator rfl (by decide) (by decide) rfl rfl rfl (.operand rfl rfl) (.operand rfl rfl)

theorem leaves_outer : outer.leaves = [application, middle, last] := by
  rw [Cursor.leaves_operator rule_outer, Cursor.leaves_operator rule_innermost,
    Cursor.leaves_of_not_operator (c := application) (by rintro _ _ ⟨⟩),
    Cursor.leaves_of_not_operator (c := middle) (by rintro _ _ ⟨⟩),
    Cursor.leaves_of_not_operator (c := last) (by rintro _ _ ⟨⟩)]
  rfl

theorem draws_outer (d : Cursor) :
    outer.Draws d ↔ d = outer ∨ (d = innermost ∨ d = application ∨ d = middle) ∨ d = last := by
  rw [Cursor.draws_operator rule_outer, Cursor.draws_operator rule_innermost,
    Cursor.draws_own (c := application) rfl, Cursor.draws_own (c := middle) rfl,
    Cursor.draws_own (c := last) rfl]

theorem unwrapped_application : locator.Unwrapped .application .application ⟨0, 6⟩ :=
  ⟨rfl, rfl, by rfl, by decide, by rfl, by decide, by decide⟩

theorem final?_application : locator.final? application = some .application :=
  Locator.final?_application rfl (by rfl) unwrapped_application

theorem final?_middle : locator.final? middle =
    some { raw := some ['b'], span := some ⟨7, 8⟩, line := some 1, column := some 8 } := by decide +kernel

theorem final?_last : locator.final? last =
    some { raw := some ['c'], span := some ⟨9, 10⟩, line := some 1, column := some 10 } := by decide +kernel

theorem final?_sums :
    locator.final? innermost = some { Placement.application with
      raw := some ((⟨0, 8⟩ : Span).read locator.source), span := some ⟨0, 8⟩ } ∧
    locator.final? outer = some { Placement.application with
      raw := some ((⟨0, 10⟩ : Span).read locator.source), span := some ⟨0, 10⟩ } := by
  obtain ⟨hinner, -, hunwrapped⟩ := Locator.unwrapped_operator rule_innermost final?_application
    final?_middle unwrapped_application rfl (by decide)
  obtain ⟨houter, -, -⟩ :=
    Locator.unwrapped_operator rule_outer hinner final?_last hunwrapped rfl (by decide)
  exact ⟨hinner, houter⟩

end AppliedSums

section
open AppliedSums

/-- Both sums begin with a parenthesis, and keep it. -/
theorem operator_spans_appliedSums :
    ∃ p', locator.resolve outer {} = .ok () p' ∧
      (∀ d, outer.Draws d → d.node.placement.raw = none →
        SpansLeaves .appliedSums (fun e => (p'.mark e).placement) d) ∧
      p'.log = outer.leaves.flatMap locator.records := by
  obtain ⟨hfinalInner, hfinalOuter⟩ := final?_sums
  have hpristine := Progress.pristine_empty outer
  obtain ⟨p', hrun⟩ :=
    hpristine.resolve_ok (l := locator) .refl (Or.inl rfl) (by rw [hfinalOuter]; simp)
  have hmark : ∀ d q, outer.Draws d → locator.final? d = some q → (p'.mark d).placement = q :=
    fun d q hd hq => Option.some.inj ((hpristine.placed .refl (Or.inl rfl) hrun hd).symm.trans hq)
  have hmarkApplication := hmark _ _ ((draws_outer application).2 (by simp)) final?_application
  have hmarkMiddle := hmark _ _ ((draws_outer middle).2 (by simp)) final?_middle
  have hmarkLast := hmark _ _ ((draws_outer last).2 (by simp)) final?_last
  have hmarkInner := hmark _ _ ((draws_outer innermost).2 (by simp)) hfinalInner
  have hresult := operator_spans hpristine .refl (Or.inl rfl) operatorTree hrun ?leaves ?ordered
  case leaves =>
    rw [leaves_outer]
    simp [hmarkApplication, hmarkMiddle, hmarkLast, Placement.application, Text.application]
  case ordered =>
    intro d left right hd hraw hleft hright s t hs ht
    rcases (draws_outer d).1 hd with rfl | (rfl | rfl | rfl) | rfl
    · obtain rfl : innermost = left := Option.some.inj hleft
      obtain rfl : last = right := Option.some.inj hright
      rw [hmarkInner] at hs
      rw [hmarkLast] at ht
      cases hs
      cases ht
      decide
    · obtain rfl : application = left := Option.some.inj hleft
      obtain rfl : middle = right := Option.some.inj hright
      rw [hmarkApplication] at hs
      rw [hmarkMiddle] at ht
      cases hs
      cases ht
      decide
    all_goals cases hraw
  exact ⟨p', hrun, hresult.1, hresult.2⟩

end

end SyntaxSpans
