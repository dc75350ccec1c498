import SyntaxSpans.Proofs.Operators

/-!
# Operands in parentheses

An operator without text reaches from the start of its left operand to the end of its right one, when both
have lost the parentheses around them. The inner halves of the pairs that they have lost stand between
these ends and the outer halves do not. So where the operands and what stands between them are balanced,
the operator's text is balanced only if neither operand was in parentheses (`operator_balanced_iff`): the
text of `(a) + (b)` is rebuilt as `a) + (b`.
-/

namespace SyntaxSpans

/-! ## Balanced texts -/

namespace Bracket

theorem depth_replicate_opening {b : Bracket} (k : Nat) : b.depth (List.replicate k b.opening) = k := by
  induction k with
  | zero => rfl
  | succ k ih => rw [List.replicate_succ, depth_cons, ih, depth_opening]; omega

end Bracket

/-! ## What strips leave -/

section
variable {raw rest : Text}

/-- A text is what strips leave of it, in the parentheses that they take off. -/
theorem eq_parentheses_peeled (raw : Text) :
    raw = List.replicate (strips raw) '(' ++ raw.peeled (strips raw) ++
      List.replicate (strips raw) ')' := by
  fun_induction strips raw with
  | case1 raw inner h ih =>
    have hpeeled := peeled_of_some h (strips inner)
    obtain ⟨rfl, -⟩ := strip?_eq_some_iff.1 h
    rw [hpeeled, List.replicate_succ, List.replicate_succ', List.cons_append, List.cons_append,
      ← List.append_assoc, ← ih]
  | case2 raw _ => simp [Text.peeled]

theorem drop_strips (raw : Text) :
    raw.drop (strips raw) = raw.peeled (strips raw) ++ List.replicate (strips raw) ')' := by
  calc raw.drop (strips raw)
      = (List.replicate (strips raw) '(' ++ raw.peeled (strips raw) ++
          List.replicate (strips raw) ')').drop (strips raw) := by rw [← eq_parentheses_peeled raw]
    _ = _ := by rw [List.append_assoc, List.drop_left' List.length_replicate]

theorem take_strips (raw : Text) :
    raw.take (raw.length - strips raw) =
      List.replicate (strips raw) '(' ++ raw.peeled (strips raw) := by
  have hlength := congrArg List.length (eq_parentheses_peeled raw)
  simp only [List.length_append, List.length_replicate] at hlength
  calc raw.take (raw.length - strips raw)
      = (List.replicate (strips raw) '(' ++ raw.peeled (strips raw) ++
          List.replicate (strips raw) ')').take (raw.length - strips raw) := by
        rw [← eq_parentheses_peeled raw]
    _ = _ := List.take_left' (by simp only [List.length_append, List.length_replicate]; omega)

/-- What strips leave of a balanced text is balanced. -/
theorem balanced_peeled (h : Bracket.round.Balanced raw) :
    Bracket.round.Balanced (raw.peeled (strips raw)) := by
  fun_induction strips raw with
  | case1 raw inner hstrip ih =>
    rw [peeled_of_some hstrip]
    exact ih (strip?_eq_some_iff.1 hstrip).2
  | case2 raw _ => exact h

/-- No pair of parentheses wraps what strips leave. -/
theorem strip?_peeled_strips (h : Bracket.round.Balanced raw) :
    strip? (raw.peeled (strips raw)) = .ok none := by
  obtain ⟨inner?, hok⟩ := strip?_ok_of_balanced (balanced_peeled h)
  cases inner? with
  | none => exact hok
  | some inner =>
    exact absurd ((strip?_peeled_iff raw (Nat.le_refl _)).1 ⟨inner, hok⟩) (Nat.lt_irrefl _)

/-- No pair wraps a text that begins where the parentheses of a balanced text end. -/
theorem strip?_drop_strips (hne : raw ≠ []) (h : Bracket.round.Balanced raw) (rest : Text) :
    strip? (raw.drop (strips raw) ++ rest) = .ok none := by
  rw [drop_strips, List.append_assoc]
  by_cases hempty : raw.peeled (strips raw) = []
  · -- nothing is left, so there were parentheses, and the text begins with a closing one
    cases hk : strips raw with
    | zero =>
      rw [hk] at hempty
      exact absurd hempty hne
    | succ k =>
      rw [hk] at hempty
      rw [hempty, List.replicate_succ]
      rfl
  · exact strip?_of_prefix (strip?_peeled_strips h) hempty (List.prefix_append _ _)

/-- **The text from one operand to the other** is balanced if neither operand was in parentheses, and
only then. -/
theorem balanced_between_iff {left gap right : Text} (hleft : Bracket.round.Balanced left)
    (hgap : Bracket.round.Balanced gap) (hright : Bracket.round.Balanced right) :
    Bracket.round.Balanced (left.drop (strips left) ++ gap ++ right.take (right.length - strips right)) ↔
      strips left = 0 ∧ strips right = 0 := by
  constructor
  · intro h
    have hstrips : strips left = 0 := by
      by_contra hne
      obtain ⟨k, hk⟩ := Nat.exists_eq_succ_of_ne_zero hne
      -- the first closing parenthesis that the left operand has lost closes nothing
      have hbegins : left.peeled (strips left) ++ [')'] ∈
          (left.drop (strips left) ++ gap ++ right.take (right.length - strips right)).inits := by
        rw [List.mem_inits, drop_strips, hk, List.replicate_succ]
        simp
      have hdepth := h.1 _ hbegins
      rw [Bracket.depth_append, (balanced_peeled hleft).2, show ')' = Bracket.round.closing from rfl,
        Bracket.depth_closing] at hdepth
      omega
    have htotal := h.2
    rw [hstrips, List.drop_zero, Bracket.depth_append, Bracket.depth_append, hleft.2, hgap.2, take_strips,
      Bracket.depth_append, (balanced_peeled hright).2] at htotal
    have := Bracket.depth_replicate_opening (b := .round) (strips right)
    rw [show Bracket.round.opening = '(' from rfl] at this
    omega
  · rintro ⟨hl, hr⟩
    rw [hl, hr, List.drop_zero, Nat.sub_zero, List.take_length]
    exact (hleft.append hgap).append hright

end

/-! ## Operands where they are reported -/

/-- The text is reported at an offset where it stands: by a span, or by a line and a column, where there
is no span that reads it. -/
structure Placement.SitsAt (p : Placement) (source raw : Text) (start : Nat) : Prop where
  text : p.raw = some raw
  stands : raw.StandsAt source start
  place : p.span = some ⟨start, start + raw.length⟩ ∨
    ((∀ s, p.span = some s → s.read source ≠ raw) ∧ ∃ line column, p.line = some line ∧
      p.column = some column ∧
      (LineMap.ofText source).offset? (line - 1) (column - 1) = some (start : Int))

section
variable {source raw : Text} {window : Window} {c d left right : Cursor} {q : Placement} {start : Nat}

theorem settle_of_sitsAt (window : Window) {role : Role} {p : Placement} (h : p.SitsAt source raw start)
    (hkind : p.span = none → role.kind ≠ "ConcatOp") (hbalanced : Bracket.round.Balanced raw) :
    (Locator.ofSource source window).settle role raw p.toAnchor =
      ⟨raw.peeled (strips raw), Anchor.insetBy
        { p.toAnchor with span := some ⟨start, start + raw.length⟩ } (strips raw),
        strippings role.kind raw, none⟩ := by
  obtain ⟨inner?, hok⟩ := strip?_ok_of_balanced hbalanced
  have hsettle := (@Locator.settle_of_standsAt (.ofSource source window) role raw
    { p.toAnchor with span := some ⟨start, start + raw.length⟩ } start rfl h.stands).2 _ hok
  rw [← hsettle]
  rcases h.place with hspan | ⟨hnot, line, column, hline, hcolumn, hoffset⟩
  · rw [← hspan]
  · have hreads : (Locator.ofSource source window).reads p.toAnchor.span raw = false := by
      rw [Bool.eq_false_iff]
      intro hreads
      obtain ⟨s, hs, hread⟩ := Locator.span_of_reads hreads
      exact hnot s hs hread
    refine Locator.settle_of_search (fun hnone => hkind (by simpa using hnone))
      (Locator.search_of_standsAt hreads hline hcolumn hoffset h.stands) ?_
    exact Locator.reads_iff_standsAt.2 h.stands

/-- An operand that ends up with a span has lost the pairs of parentheses that wrap it. -/
theorem span_of_sitsAt (h : d.node.placement.SitsAt source raw start)
    (hbalanced : Bracket.round.Balanced raw) {span : Span}
    (hq : (Locator.ofSource source window).final? d = some q) (hspan : q.span = some span) :
    span = ⟨start + strips raw, start + raw.length - strips raw⟩ := by
  rw [Locator.final?_own (Cursor.rule_own.2 h.text)] at hq
  by_cases hskip : d.node.placement.span = none ∧ d.role.kind = "ConcatOp"
  · -- a concatenation without a span stays without one
    rw [Locator.settled?_of_atRest (.skipped hskip.1 hskip.2)] at hq
    obtain rfl := Option.some.inj hq
    exact absurd (hskip.1.symm.trans hspan) (by simp)
  · rw [Locator.settled?_of_settle (settle_of_sitsAt window h (fun hnone hkind => hskip ⟨hnone, hkind⟩)
      hbalanced)] at hq
    obtain rfl := Option.some.inj hq
    exact (Option.some.inj hspan).symm

theorem slice_append {α : Type} (xs : List α) {i j k : Nat} (hij : i ≤ j) (hjk : j ≤ k) :
    slice xs i k = slice xs i j ++ slice xs j k := by
  obtain ⟨n, rfl⟩ := Nat.exists_eq_add_of_le hij
  obtain ⟨m, rfl⟩ := Nat.exists_eq_add_of_le hjk
  have hwhole := slice_add xs i (n + m)
  have hfirst := slice_add xs i n
  have hsecond := slice_add xs (i + n) m
  simp only [Int.natCast_add, ← Int.add_assoc] at hwhole hfirst hsecond ⊢
  rw [hwhole, hfirst, hsecond, List.take_add, List.drop_drop]

theorem slice_between {lraw rraw : Text} {i j k m : Nat} (hleft : lraw.StandsAt source i)
    (hright : rraw.StandsAt source j) (hle : i + lraw.length ≤ j) (hk : k ≤ lraw.length)
    (hm : m ≤ rraw.length) :
    slice source (i + k) (j + rraw.length - m) =
      lraw.drop k ++ slice source (i + lraw.length) j ++ rraw.take (rraw.length - m) := by
  have hreadLeft : slice source (i + k : Nat) (i + lraw.length : Nat) = lraw.drop k := by
    have hslice := slice_add source (i + k) (lraw.length - k)
    rw [← Int.natCast_add, Nat.add_assoc, Nat.add_sub_of_le hk, ← List.drop_drop, ← List.drop_take]
      at hslice
    rw [hslice, ← List.prefix_iff_eq_take.1 hleft]
  have hreadRight : slice source j (j + (rraw.length - m) : Nat) = rraw.take (rraw.length - m) := by
    obtain ⟨rest, hrest⟩ := hright
    rw [Int.natCast_add, slice_add, ← hrest, List.take_append_of_le_length (Nat.sub_le _ _)]
  have hstart : (i : Int) + k = (i + k : Nat) := by omega
  have hstop : (j : Int) + rraw.length - m = (j + (rraw.length - m) : Nat) := by omega
  rw [hstart, hstop, slice_append source (by omega : i + k ≤ i + lraw.length) (by omega),
    slice_append source hle (by omega : j ≤ j + (rraw.length - m)), hreadLeft, hreadRight,
    List.append_assoc]
  rfl

end

/-! ## Operators over operands in parentheses -/

section
variable {source : Text} {window : Window} {r c left right : Cursor} {p p' : Progress}
  {lraw rraw : Text} {i j : Nat}

theorem text_of_sitsAt (hr : c.rule = .operator left right) {q : Placement}
    (hq : (Locator.ofSource source window).final? c = some q)
    (hleft : left.node.placement.SitsAt source lraw i)
    (hright : right.node.placement.SitsAt source rraw j) (hne : lraw ≠ [])
    (hbl : Bracket.round.Balanced lraw) (hbr : Bracket.round.Balanced rraw)
    (hle : i + lraw.length ≤ j) :
    q.raw = some (lraw.drop (strips lraw) ++ slice source (i + lraw.length) j ++
      rraw.take (rraw.length - strips rraw)) := by
  obtain ⟨⟨p₁, s, hp₁, hs⟩, ⟨p₂, t, hp₂, ht⟩⟩ := Locator.spanned_of_operator hr (by rw [hq]; simp)
  obtain rfl := span_of_sitsAt hleft hbl hp₁ hs
  obtain rfl := span_of_sitsAt hright hbr hp₂ ht
  have hkl := two_mul_strips_le lraw
  have hkr := two_mul_strips_le rraw
  have htext := slice_between hleft.stands hright.stands hle (by omega : strips lraw ≤ lraw.length)
    (by omega : strips rraw ≤ rraw.length)
  have hstrip := strip?_drop_strips hne hbl
    (slice source (i + lraw.length) j ++ rraw.take (rraw.length - strips rraw))
  rw [← List.append_assoc, ← htext] at hstrip
  obtain ⟨hfinal, -⟩ := Locator.final?_operator_of_strip hr hp₁ hp₂ hs ht hstrip
  rw [← htext, Option.some.inj (hq.symm.trans hfinal)]
  rfl

/-- **When an operator keeps its parentheses paired**: where both operands are balanced and stand where
they are reported, one after the other with a balanced text between them, and the operator can be resolved,
its text is balanced if no parentheses have been taken off either operand, and only then. -/
theorem operator_balanced_iff (hp : p.Pristine r) (hc : r.Contains c)
    (hl : c.path = [] ∨ (p.mark c).linked = true) (htext : c.node.placement.raw = none)
    (hguard : c.isNegatedGuard = false) (hchildLeft : c.child? "left" = some left)
    (hchildRight : c.child? "right" = some right)
    (hleft : left.node.placement.SitsAt source lraw i)
    (hright : right.node.placement.SitsAt source rraw j) (hne : lraw ≠ [])
    (hbl : Bracket.round.Balanced lraw) (hbr : Bracket.round.Balanced rraw)
    (hle : i + lraw.length ≤ j) (hgap : Bracket.round.Balanced (slice source (i + lraw.length) j))
    (hrun : (Locator.ofSource source window).resolve c p = .ok () p') {text : Text}
    (hraw : (p'.mark c).placement.raw = some text) :
    text = lraw.drop (strips lraw) ++ slice source (i + lraw.length) j ++
        rraw.take (rraw.length - strips rraw) ∧
      (Bracket.round.Balanced text ↔ strips lraw = 0 ∧ strips rraw = 0) := by
  have hq := hp.placed hc hl hrun .refl
  have heq : text = lraw.drop (strips lraw) ++ slice source (i + lraw.length) j ++
      rraw.take (rraw.length - strips rraw) := by
    -- a text that was not reported, at no negated condition, can only come from two operands
    cases hr : c.rule with
    | own raw =>
      rw [Cursor.rule_own.1 hr] at htext
      cases htext
    | bare =>
      rw [Locator.final?_bare hr, Option.some.injEq] at hq
      rw [← hq, htext] at hraw
      cases hraw
    | negation d =>
      rw [Cursor.isNegatedGuard_of_negation hr] at hguard
      cases hguard
    | operator a b =>
      obtain ⟨ha, hb⟩ := Cursor.children_of_operator hr
      obtain rfl : left = a := Option.some.inj (hchildLeft.symm.trans ha)
      obtain rfl : right = b := Option.some.inj (hchildRight.symm.trans hb)
      rw [text_of_sitsAt hr hq hleft hright hne hbl hbr hle] at hraw
      exact (Option.some.inj hraw).symm
    | stuck =>
      rw [Locator.final?_stuck hr] at hq
      cases hq
  exact ⟨heq, heq ▸ balanced_between_iff hbl hgap hbr⟩

end

/-- The source `(f)(x)+b`. -/
def Text.appliedSum : Text := .application ++ ['+', 'b']

theorem sitsAt_appliedSum :
    (Node.application).placement.SitsAt .appliedSum .application 0 ∧
      (Node.identifier 'b' 8).placement.SitsAt .appliedSum ['b'] 7 :=
  ⟨⟨rfl, by decide, Or.inr ⟨by rintro s ⟨⟩, 1, 1, rfl, rfl, rfl⟩⟩,
    ⟨rfl, by decide, Or.inr ⟨by rintro s ⟨⟩, 1, 8, rfl, rfl, rfl⟩⟩⟩

/-- The sum reaches from the application to the name. -/
theorem final?_appliedSum : (Locator.ofSource .appliedSum .standard).final? (.root .appliedSum) =
    some { Placement.application with raw := some .appliedSum, span := some ⟨0, 8⟩ } := by
  have hunwrapped : (Locator.ofSource .appliedSum .standard).Unwrapped .application .application ⟨0, 6⟩ :=
    ⟨rfl, rfl, by rfl, by decide, by rfl, by decide, by decide⟩
  have hname : (Locator.ofSource .appliedSum .standard).final?
      ⟨.identifier 'b' 8, [⟨"right", []⟩], some "PlusOp"⟩ =
      some { raw := some ['b'], span := some ⟨7, 8⟩, line := some 1, column := some 8 } := by
    decide +kernel
  exact (Locator.unwrapped_operator rfl (Locator.final?_application rfl (by rfl) hunwrapped) hname hunwrapped
    rfl (by decide)).1

/-- No pair is around all of the application, so the sum keeps both pairs. -/
theorem operator_balanced_iff_appliedSum :
    ∃ p', (Locator.ofSource .appliedSum .standard).resolve (.root .appliedSum) {} = .ok () p' ∧
      (p'.mark (.root .appliedSum)).placement.raw = some .appliedSum ∧
      Bracket.round.Balanced .appliedSum := by
  have hpristine := Progress.pristine_empty (.root .appliedSum)
  obtain ⟨p', hrun⟩ := hpristine.resolve_ok .refl (Or.inl rfl) (by rw [final?_appliedSum]; simp)
  have hraw : (p'.mark (.root .appliedSum)).placement.raw = some .appliedSum := by
    have hmark := (hpristine.placed .refl (Or.inl rfl) hrun .refl).symm.trans final?_appliedSum
    rw [Option.some.inj hmark]
  refine ⟨p', hrun, hraw, ?_⟩
  exact (operator_balanced_iff hpristine .refl (Or.inl rfl) rfl rfl rfl rfl sitsAt_appliedSum.1
    sitsAt_appliedSum.2 (by decide) (by decide) (by decide) (by decide) (by decide) hrun hraw).2.2
    ⟨by decide +kernel, by decide +kernel⟩

/-- A name in parentheses, as it is reported. -/
def Node.grouped (name : Char) (column : Int) : Node :=
  .mk "Identifier" { raw := some ['(', name, ')'], line := some 1, column := some column } []

def Node.groups : Node :=
  .mk "PlusOp" {} [("left", .node (.grouped 'a' 1)), ("right", .node (.grouped 'b' 7))]

def Text.groups : Text := ['(', 'a', ')', ' ', '+', ' ', '(', 'b', ')']

/-- The operands of the sum are balanced and stand where they are reported, but half of their parentheses
is lost in its text. -/
theorem operator_not_balanced :
    (Node.grouped 'a' 1).placement.SitsAt .groups ['(', 'a', ')'] 0 ∧
    (Node.grouped 'b' 7).placement.SitsAt .groups ['(', 'b', ')'] 6 ∧
    Bracket.round.Balanced ['(', 'a', ')'] ∧ Bracket.round.Balanced ['(', 'b', ')'] ∧
    Bracket.round.Balanced (slice Text.groups 3 6) ∧
    ∃ p', (Locator.ofSource .groups .standard).resolve (.root .groups) {} = .ok () p' ∧
      (p'.mark (.root .groups)).placement.raw = some ['a', ')', ' ', '+', ' ', '(', 'b'] ∧
      ¬ Bracket.round.Balanced ['a', ')', ' ', '+', ' ', '(', 'b'] := by
  have hpristine := Progress.pristine_empty (.root .groups)
  have hfinal : (Locator.ofSource .groups .standard).final? (.root .groups) =
      some { raw := some ['a', ')', ' ', '+', ' ', '(', 'b'], span := some ⟨1, 8⟩, line := some 1,
             column := some 0 } := by
    decide +kernel
  obtain ⟨p', hrun⟩ := hpristine.resolve_ok .refl (Or.inl rfl) (by rw [hfinal]; simp)
  have hmark := (hpristine.placed .refl (Or.inl rfl) hrun .refl).symm.trans hfinal
  refine ⟨⟨rfl, by decide, Or.inr ⟨by rintro s ⟨⟩, 1, 1, rfl, rfl, rfl⟩⟩,
    ⟨rfl, by decide, Or.inr ⟨by rintro s ⟨⟩, 1, 7, rfl, rfl, rfl⟩⟩, by decide, by decide, by decide,
    p', hrun, ?_, by decide⟩
  rw [Option.some.inj hmark]

end SyntaxSpans
