import SyntaxSpans.Proofs.Fixpoint
import SyntaxSpans.Proofs.Omission
import SyntaxSpans.Proofs.Searching

/-!
# Steps of loops

Where the `step` of a loop is left out of the source, a parser makes one up, and its text need not be
anywhere. No rule draws on the field `step`, so all other nodes end up where they do in the tree without it
(`final?_without`), and the step matters only through what its own visit comes to
(`annotate_ok_iff_without`). A step whose text is not found is left alone. What remains are the ways to fail
before that: to have no text at all, to look up a line that there is not, and to begin with a parenthesis
that has no counterpart.
-/

namespace SyntaxSpans

/-! ## Rules without the step -/

namespace Cursor

def Rule.map (f : Cursor → Cursor) : Rule → Rule
  | .own raw => .own raw
  | .bare => .bare
  | .negation operand => .negation (f operand)
  | .operator left right => .operator (f left) (f right)
  | .stuck => .stuck

theorem Rule.operands_map (f : Cursor → Cursor) (r : Rule) : (r.map f).operands = r.operands.map f := by
  cases r <;> rfl

section
variable {above : Path} {c d : Cursor}

@[simp] theorem role_without {target : Path} : (c.without target).role = c.role := by
  rw [role, role, kind_without]
  rfl

/-- What a node's text is taken from is no step. -/
theorem rule_without : (c.without (⟨"step", []⟩ :: above)).rule =
    c.rule.map (without (⟨"step", []⟩ :: above)) := by
  have hchild : ∀ name ≠ "step", (c.without (⟨"step", []⟩ :: above)).child? name =
      (c.child? name).map (without (⟨"step", []⟩ :: above)) := fun name hname =>
    (exchanges_without fun heq => hname (by simp at heq; exact heq.1)).child?
  have himplicit : (c.without (⟨"step", []⟩ :: above)).isImplicit = c.isImplicit := by
    rw [isImplicit, isImplicit, placement_without, kind_without]
  have hguard : (c.without (⟨"step", []⟩ :: above)).isNegatedGuard = c.isNegatedGuard := by
    rw [isNegatedGuard, isNegatedGuard, kind_without]
    rfl
  unfold rule
  rw [placement_without, himplicit, hguard, hchild "expression" (by decide), hchild "left" (by decide),
    hchild "right" (by decide), show (c.without _).isLoopGuard = c.isLoopGuard from rfl]
  cases c.node.placement.raw with
  | some raw => rfl
  | none =>
    dsimp only
    split
    · rfl
    · split
      · cases c.child? "expression" <;> rfl
      · cases c.child? "left" <;> cases c.child? "right" <;> rfl

theorem operands_without : (c.without (⟨"step", []⟩ :: above)).operands =
    c.operands.map (without (⟨"step", []⟩ :: above)) := by
  rw [operands, operands, rule_without, Rule.operands_map]

theorem Draws.without (h : c.Draws d) :
    (c.without (⟨"step", []⟩ :: above)).Draws (d.without (⟨"step", []⟩ :: above)) := by
  induction h with
  | refl => exact .refl
  | down _ he ih =>
    refine ih.down ?_
    rw [operands_without]
    exact List.mem_map_of_mem he

theorem draws_of_without {d' : Cursor} (h : (c.without (⟨"step", []⟩ :: above)).Draws d') :
    ∃ d, c.Draws d ∧ d' = d.without (⟨"step", []⟩ :: above) := by
  induction h with
  | refl => exact ⟨c, .refl, rfl⟩
  | down _ he ih =>
    obtain ⟨d, hd, rfl⟩ := ih
    rw [operands_without] at he
    obtain ⟨e, hmem, rfl⟩ := List.mem_map.1 he
    exact ⟨e, hd.down hmem, rfl⟩

/-- **A node ends up** where it does in the tree without the step. -/
theorem final?_without (l : Locator) (c : Cursor) :
    l.final? (c.without (⟨"step", []⟩ :: above)) = l.final? c := by
  have hrule : ∀ {r : Rule}, c.rule = r →
      (c.without (⟨"step", []⟩ :: above)).rule = r.map (without (⟨"step", []⟩ :: above)) := by
    rintro r rfl
    exact rule_without
  cases hr : c.rule with
  | own raw =>
    rw [Locator.final?_own (hrule hr), Locator.final?_own hr, role_without, placement_without]
  | bare => rw [Locator.final?_bare (hrule hr), Locator.final?_bare hr, placement_without]
  | negation operand =>
    have := sizeOf_operand_lt (c := c) (d := operand) (by simp [operands_negation hr])
    rw [Locator.final?_negation (hrule hr), Locator.final?_negation hr, role_without,
      final?_without l operand]
  | operator left right =>
    have := sizeOf_operand_lt (c := c) (d := left) (by simp [operands_operator hr])
    have := sizeOf_operand_lt (c := c) (d := right) (by simp [operands_operator hr])
    rw [Locator.final?_operator (hrule hr), Locator.final?_operator hr, role_without,
      final?_without l left, final?_without l right]
  | stuck => rw [Locator.final?_stuck (hrule hr), Locator.final?_stuck hr]
termination_by sizeOf c.node

theorem mark_without (p : Progress) (target : Path) (c : Cursor) : p.mark (c.without target) = p.mark c := by
  rw [Progress.mark, Progress.mark, placement_without, path_without]

end

end Cursor

/-! ## The step itself -/

namespace Locator

/-- Settling a text meets no line that there is not, and if the text is found a parenthesis in front of it
has a counterpart. -/
structure Orderly (l : Locator) (role : Role) (raw : Text) (a : Anchor) : Prop where
  line : ∀ {k t b line column}, l.Seeks role raw a k t b → b.line = some line → b.column = some column →
    l.lines.start? (line - 1) ≠ none
  closed : ∀ {a'}, l.search raw a = .ok a' → l.reads a'.span raw = true → ∀ e, strip? raw ≠ .error e

section
variable {l : Locator} {role : Role} {raw inner : Text} {a a' : Anchor}

/-- The text inside of a pair that closes has no parenthesis in front that does not. -/
theorem Orderly.inset (h : l.Orderly role raw a) (hgoes : a.span = none → role.kind ≠ "ConcatOp")
    (hsearch : l.search raw a = .ok a') (hreads : l.reads a'.span raw = true)
    (hstrip : strip? raw = .ok (some inner)) : l.Orderly role inner a'.inset where
  line hseeks := h.line (.inset hgoes hsearch hreads hstrip hseeks)
  closed _ _ e he := by
    obtain ⟨inner?, hok⟩ := strip?_ok_of_some hstrip
    rw [hok] at he
    cases he

/-- **An orderly step** is settled without a fault, whether or not its text is found. -/
theorem Orderly.settle_step (hstep : role.isStep = true) (h : l.Orderly role raw a) :
    (l.settle role raw a).fault = none := by
  have hgoes : ∀ {a : Anchor}, ¬ (a.span.isNone && role.kind == "ConcatOp") = true →
      a.span = none → role.kind ≠ "ConcatOp" := fun hskip hspan hkind =>
    hskip (by simp [hspan, hkind])
  fun_induction l.settle role raw a with
  | case1 | case4 | case6 => rfl
  | case2 raw a hskip e hsearch =>
    obtain ⟨line, column, rfl, hline, hcolumn, hnone⟩ := search_error hsearch
    have hmiss : l.reads a.span raw = false := by
      by_contra hreads
      rw [search_of_reads (Bool.of_not_eq_false hreads)] at hsearch
      cases hsearch
    exact absurd hnone (h.line (.here (hgoes hskip) hmiss) hline hcolumn)
  | case3 raw a _ a' hsearch hreads e he => exact absurd he (h.closed hsearch hreads e)
  | case5 raw a hskip a' hsearch hreads inner hstrip ih =>
    exact ih (h.inset (hgoes hskip) hsearch hreads hstrip)
  | case7 _ _ _ _ _ _ hnot | case8 _ _ _ _ _ _ hnot | case9 _ _ _ _ _ _ hnot => exact absurd hstep hnot

end

end Locator

section
variable {source : Text} {window : Window} {tree : Node} {loop step : Cursor}

theorem Cursor.isStep_of_child? (h : loop.child? "step" = some step) : step.role.isStep = true := by
  rw [role, isIn, path_of_child? h]
  exact beq_self_eq_true _

/-- A step has a place if its text is orderly, or if it is a concatenation without a span. -/
theorem Locator.final?_step {l : Locator} (hstep : loop.child? "step" = some step)
    (h : step.isImplicit = true ∨ ∃ raw, step.node.placement.raw = some raw ∧
      l.Orderly step.role raw step.node.placement.toAnchor) : l.final? step ≠ none := by
  cases hraw : step.node.placement.raw with
  | none =>
    rcases h with himplicit | ⟨raw, hsome, -⟩
    · rw [final?_bare (Cursor.rule_bare.2 ⟨hraw, Or.inl himplicit⟩)]
      exact Option.some_ne_none _
    · rw [hraw] at hsome
      cases hsome
  | some raw =>
    rw [final?_own (Cursor.rule_own.2 hraw)]
    rcases h with himplicit | ⟨raw', hsome, horderly⟩
    · simp only [Cursor.isImplicit, Bool.and_eq_true, Option.isNone_iff_eq_none, beq_iff_eq] at himplicit
      rw [settled?_of_atRest (.skipped himplicit.1 himplicit.2)]
      exact Option.some_ne_none _
    · obtain rfl := Option.some.inj (hraw.symm.trans hsome)
      rw [settled?, horderly.settle_step (Cursor.isStep_of_child? hstep)]
      exact Option.some_ne_none _

/-- A step without text, and not made of two operands, is a gap. -/
theorem Locator.visitFault?_step {l : Locator} (hstep : loop.child? "step" = some step)
    (hsound : step.introduced.fault = none) (hraw : step.node.placement.raw = none)
    (hnot : step.isImplicit = false) (hleaf : step.child? "left" = none ∨ step.child? "right" = none) :
    l.visitFault? step = some (step.gapFault .noText) := by
  have hin : step.isIn "condition" = false := by
    rw [Cursor.isIn, Cursor.path_of_child? hstep]
    rfl
  have hguard : step.isNegatedGuard = false := by simp [Cursor.isNegatedGuard, hin]
  have hrule : step.rule = .stuck := by
    rw [Cursor.rule, hraw, hnot, hguard, Cursor.isLoopGuard, hin]
    dsimp only [Bool.false_and, Bool.or_false]
    rcases hleaf with hnone | hnone <;> rw [hnone]
    · rfl
    · cases step.child? "left" <;> rfl
  have hgiven : l.given? step = none := by rw [given?, hrule]
  rw [visitFault?_of_operands hsound (by rw [Cursor.operands, hrule]; rfl), ownFault?, hgiven,
    Cursor.unplaced?, hrule, hguard]
  rfl

/-! ## The tree with and without it -/

section
variable (hloop : (Cursor.root tree).Contains loop) (hstep : loop.child? "step" = some step)
  (hleaf : step.children = [])
include hloop hstep hleaf

theorem preorder_without_step : (Cursor.root (tree.without step.path)).preorder =
    ((Cursor.root tree).preorder.filter fun c => decide (c.path ≠ step.path)).map
      (Cursor.without step.path) := by
  refine Cursor.preorder_without (Cursor.holdsLeaf_of_child? hloop hstep hleaf) ?_
  rw [Cursor.path_of_child? hstep]
  exact (List.cons_ne_nil _ _).symm

/-- The tree without the step can be annotated if all other nodes have places and sound patterns. -/
theorem annotate_without_ok_iff : (∃ b, annotate source window (tree.without step.path) = .ok b) ↔
    ∀ c ∈ (Cursor.root tree).preorder, c.path ≠ step.path →
      (Locator.ofSource source window).final? c ≠ none ∧ c.introduced.fault = none := by
  have hpath := Cursor.path_of_child? hstep
  have hfield : "step" ∉ Cursor.patternFields := by decide
  have hsound : ∀ c : Cursor, (c.without (⟨"step", []⟩ :: loop.path)).introduced.fault = _ := fun c =>
    (Cursor.reflects_without hfield).introduced_fault trivial
  rw [annotate_ok_iff, preorder_without_step hloop hstep hleaf]
  simp only [List.forall_mem_map, List.mem_filter, decide_eq_true_iff, and_imp, hpath,
    Cursor.final?_without, hsound]

/-- **What a step changes**: the tree with it can be annotated if the tree without it can be, and if the
step has a place in case that the walk reaches it. -/
theorem annotate_ok_iff_without : (∃ a, annotate source window tree = .ok a) ↔
    (∃ b, annotate source window (tree.without step.path) = .ok b) ∧
      (step ∈ (Cursor.root tree).preorder →
        (Locator.ofSource source window).final? step ≠ none ∧ step.introduced.fault = none) := by
  rw [annotate_without_ok_iff hloop hstep hleaf, annotate_ok_iff]
  refine ⟨fun h => ⟨fun c hc _ => h c hc, h step⟩, fun ⟨hothers, hself⟩ c hc => ?_⟩
  by_cases heq : c.path = step.path
  · obtain rfl := (Cursor.contains_of_mem_preorder hc).eq_of_path (hloop.child hstep) heq
    exact hself hc
  · exact hothers c hc heq

/-- If the walk comes to its end without the step, it ends in the fault of the step. -/
theorem annotate_error_of_step {fault : Fault} (hin : step ∈ (Cursor.root tree).preorder)
    (hfault : (Locator.ofSource source window).visitFault? step = some fault)
    (h : ∃ b, annotate source window (tree.without step.path) = .ok b) :
    annotate source window tree = .error fault := by
  have hothers := (annotate_without_ok_iff hloop hstep hleaf).1 h
  have honly : ∀ c ∈ (Cursor.root tree).preorder, ∀ e,
      (Locator.ofSource source window).visitFault? c = some e → e = fault := fun c hc e he => by
    by_cases heq : c.path = step.path
    · obtain rfl := (Cursor.contains_of_mem_preorder hc).eq_of_path (hloop.child hstep) heq
      exact Option.some.inj (he.symm.trans hfault)
    · rw [Locator.visitFault?_eq_none_iff.2 (hothers c hc heq)] at he
      cases he
  rw [annotate_error_iff]
  cases hfirst : (Locator.ofSource source window).firstFault? tree with
  | none =>
    rw [List.findSome?_eq_none_iff.1 hfirst step hin] at hfault
    cases hfault
  | some e =>
    obtain ⟨c, hc, he⟩ := List.exists_of_findSome?_eq_some hfirst
    rw [honly c hc e he]

theorem drawn_without_iff {d : Cursor} (hd : (Cursor.root tree).Contains d) (hnot : ¬ step.path <:+ d.path) :
    (∃ c ∈ (Cursor.root (tree.without step.path)).preorder, c.Draws (d.without step.path)) ↔
      ∃ c ∈ (Cursor.root tree).preorder, c.Draws d := by
  have hpath := Cursor.path_of_child? hstep
  rw [preorder_without_step hloop hstep hleaf]
  rw [hpath] at hnot ⊢
  constructor
  · rintro ⟨c', hc', hdraws⟩
    obtain ⟨c, hc, rfl⟩ := List.mem_map.1 hc'
    obtain ⟨hc, -⟩ := List.mem_filter.1 hc
    obtain ⟨e, he, heq⟩ := Cursor.draws_of_without hdraws
    have hroot := Cursor.contains_of_mem_preorder hc
    have hsame : d.path = e.path := congrArg (·.path) heq
    obtain rfl := hd.eq_of_path (Progress.contains_of_draws hroot he) hsame
    exact ⟨c, hc, he⟩
  · rintro ⟨c, hc, hdraws⟩
    refine ⟨_, List.mem_map_of_mem (List.mem_filter.2 ⟨hc, decide_eq_true fun heq => ?_⟩), hdraws.without⟩
    have hsuffix := (Progress.contains_of_draws .refl hdraws).path_suffix
    rw [heq] at hsuffix
    exact hnot hsuffix

/-- **All other nodes** end up at the same places. -/
theorem annotated_without (hregular : tree.Regular) {a b : Annotated}
    (ha : annotate source window tree = .ok a)
    (hb : annotate source window (tree.without step.path) = .ok b) : a.tree.without step.path = b.tree := by
  have hpath := Cursor.path_of_child? hstep
  rw [(annotate_ok.1 ha).2, (annotate_ok.1 hb).2, Node.without, Progress.place_eq, Node.relabel,
    Node.without_relabelAt]
  refine Progress.place_congr (regular_without hregular) fun d' hd' => ?_
  obtain ⟨d, hd, rfl, hnot⟩ := Cursor.contains_of_without (c := .root tree) ⟨_, _, hpath⟩
    (by rw [hpath]; simp [Cursor.root]) hd'
  have hdrawn := drawn_without_iff hloop hstep hleaf hd hnot
  by_cases hdraw : ∃ c ∈ (Cursor.root tree).preorder, c.Draws d
  · have hwith := (annotate_completes ha).drawn d hd hdraw
    have hwithout := (annotate_completes hb).drawn _ hd' (hdrawn.2 hdraw)
    rw [hpath, Cursor.final?_without, hwith, ← hpath] at hwithout
    rw [Cursor.mark_without]
    exact Option.some.inj hwithout
  · rw [Cursor.mark_without, (annotate_completes ha).rest d hd hdraw,
      (annotate_completes hb).rest _ hd' fun h => hdraw (hdrawn.1 h), Cursor.placement_without]

end

/-- **A made-up step does no harm.** A childless `step` that has a text may be there or not, if the text is
orderly, and so may a concatenation without a span: the tree can be annotated in both cases or in neither.
Without a text it is a gap instead. Either way all other nodes end up at the same places. -/
theorem step_harmless {j : Json} (hj : j.Distinct) (htree : Node.ofJson j = .ok tree)
    (hloop : (Cursor.root tree).Contains loop) (hstep : loop.child? "step" = some step)
    (hleaf : step.children = []) (hsound : step.introduced.fault = none) :
    ((step.isImplicit = true ∨ ∃ raw, step.node.placement.raw = some raw ∧
        (Locator.ofSource source window).Orderly step.role raw step.node.placement.toAnchor) →
      ((∃ a, annotate source window tree = .ok a) ↔
        ∃ b, annotate source window (tree.without step.path) = .ok b)) ∧
    (step.node.placement.raw = none → step.isImplicit = false →
      (step.child? "left" = none ∨ step.child? "right" = none) → step ∈ (Cursor.root tree).preorder →
      (∃ b, annotate source window (tree.without step.path) = .ok b) →
      annotate source window tree = .error (step.gapFault .noText)) ∧
    ∀ a b, annotate source window tree = .ok a → annotate source window (tree.without step.path) = .ok b →
      a.tree.without step.path = b.tree := by
  refine ⟨fun h => ?_, fun hraw hnot hoperands hin hb => ?_, fun a b ha hb => ?_⟩
  · rw [annotate_ok_iff_without hloop hstep hleaf]
    exact and_iff_left fun _ => ⟨Locator.final?_step hstep h, hsound⟩
  · have hfault := Locator.visitFault?_step (l := .ofSource source window) hstep hsound hraw hnot hoperands
    exact annotate_error_of_step hloop hstep hleaf hin hfault hb
  · exact annotated_without hloop hstep hleaf (regular_of_ofJson hj htree) ha hb

end

/-! ## A loop with a step -/

/-- A loop with a number for its step. -/
def Node.stepping (step : Placement) : Node :=
  .mk "ForIn" { raw := some ['a'], line := some 1, column := some 1 } [("step", .node (.mk "Int" step []))]

def Cursor.number (step : Placement) : Cursor := ⟨.mk "Int" step [], [⟨"step", []⟩], some "ForIn"⟩

/-- Without its step the loop can be annotated. -/
theorem annotate_stepping_without (step : Placement) :
    ∃ b, annotate ['a'] .standard ((Node.stepping step).without (Cursor.number step).path) = .ok b := by
  have hwithout : (Node.stepping step).without (Cursor.number step).path =
      .mk "ForIn" { raw := some ['a'], line := some 1, column := some 1 } [] := rfl
  have hfinal : (Locator.ofSource ['a'] .standard).final? (.root
      (.mk "ForIn" { raw := some ['a'], line := some 1, column := some 1 } [])) =
        some { raw := some ['a'], span := some ⟨0, 1⟩, line := some 1, column := some 1 } := by
    decide +kernel
  rw [hwithout]
  obtain ⟨b, -, hb, -⟩ := annotate_leaf ['a'] .standard _ rfl rfl hfinal
  exact ⟨b, hb⟩

/-- The number is not in the source, and the loop is annotated nevertheless. -/
theorem step_harmless_absent :
    let step := Cursor.number { raw := some ['1'], line := some 1, column := some 1 }
    let tree := Node.stepping step.node.placement
    ∃ a b, annotate ['a'] .standard tree = .ok a ∧
      annotate ['a'] .standard (tree.without step.path) = .ok b ∧ a.tree.without step.path = b.tree := by
  intro step tree
  have hdistinct : tree.dump.Distinct :=
    ⟨by decide, trivial, trivial, trivial, trivial, ⟨by decide, trivial, trivial, trivial, trivial, trivial⟩,
      trivial⟩
  have horderly : (Locator.ofSource ['a'] .standard).Orderly step.role ['1'] step.node.placement.toAnchor := by
    refine ⟨fun hseeks hline _ => ?_, fun _ _ e he => by cases he⟩
    obtain rfl := Option.some.inj (hseeks.line.symm.trans hline)
    exact Option.some_ne_none 0
  obtain ⟨hsame, -, hplaces⟩ :=
    @step_harmless ['a'] .standard tree (.root tree) step tree.dump hdistinct rfl .refl rfl rfl rfl
  obtain ⟨b, hb⟩ := annotate_stepping_without step.node.placement
  obtain ⟨a, ha⟩ := (hsame (Or.inr ⟨_, rfl, horderly⟩)).2 ⟨b, hb⟩
  exact ⟨a, b, ha, hb, hplaces a b ha hb⟩

/-- A step without a text ends the annotation of a tree that could be annotated without it. -/
theorem step_not_harmless :
    let step := Cursor.number {}
    let tree := Node.stepping {}
    Node.ofJson tree.dump = .ok tree ∧ (Cursor.root tree).child? "step" = some step ∧ step.children = [] ∧
      (∃ b, annotate ['a'] .standard (tree.without step.path) = .ok b) ∧
      annotate ['a'] .standard tree = .error (.gap .noText "Int" none none) := by
  intro step tree
  have hb := annotate_stepping_without {}
  have hpre := Cursor.preorder_of_leaves (c := .root tree) (by decide)
  have hin : step ∈ (Cursor.root tree).preorder := by
    rw [hpre]
    exact List.mem_cons_of_mem _ List.mem_cons_self
  have hfault := Locator.visitFault?_step (l := .ofSource ['a'] .standard)
    (show (Cursor.root tree).child? "step" = some step from rfl) rfl rfl rfl (Or.inl rfl)
  exact ⟨rfl, rfl, rfl, hb, annotate_error_of_step .refl rfl rfl hin hfault hb⟩

end SyntaxSpans
