import SyntaxSpans.Proofs.Exactness
import SyntaxSpans.Proofs.Stripping

/-!
# Spans inside spans

Every node loses its own pairs of parentheses, but a node does not lose one that a node below it keeps.
A balanced text inside a text in parentheses either is that text, and loses the same pairs, or keeps
clear of the pair altogether (`strips_within`). So the spans of the nodes below a node still lie in
that of the node after the annotation (`spans_nested`).
-/

namespace SyntaxSpans

section
variable {outer inner raw : Text} {offset : Nat}

/-- A balanced text that begins with the parenthesis of a pair goes as far as the pair. -/
theorem eq_of_prefix_pair (hne : inner ≠ []) (hbalanced : Bracket.round.Balanced inner)
    (hraw : Bracket.round.Balanced raw) (h : inner <+: '(' :: (raw ++ [')'])) :
    inner = '(' :: (raw ++ [')']) := by
  rw [← List.cons_append] at h ⊢
  rcases List.prefix_concat_iff.1 h with heq | hproper
  · exact heq
  · rcases List.prefix_cons_iff.1 hproper with rfl | ⟨p, rfl, hp⟩
    · exact absurd rfl hne
    · have hdepth := hbalanced.2
      have hpos := hraw.1 p ((List.mem_inits _ _).2 hp)
      rw [Bracket.depth_cons, show '(' = Bracket.round.opening from rfl, Bracket.depth_opening]
        at hdepth
      omega

/-- A balanced text that begins inside a pair of parentheses does not reach its end. -/
theorem not_suffix_pair (hne : inner ≠ []) (hbalanced : Bracket.round.Balanced inner)
    (hraw : Bracket.round.Balanced raw) : ¬ inner <:+ raw ++ [')'] := by
  intro h
  rcases List.suffix_concat_iff.1 h with rfl | ⟨t, rfl, before, rfl⟩
  · exact hne rfl
  · have hdepth := hbalanced.2
    have htotal := hraw.2
    have hpos := hraw.1 before ((List.mem_inits _ _).2 (List.prefix_append _ _))
    rw [Bracket.depth_append, show ')' = Bracket.round.closing from rfl, Bracket.depth_closing]
      at hdepth
    rw [Bracket.depth_append] at htotal
    omega

/-- **A text inside another one** stays inside when both lose the pairs that wrap them. -/
theorem strips_within (hne : inner ≠ []) (hbalanced : Bracket.round.Balanced inner)
    (h : inner <+: outer.drop offset) :
    strips outer ≤ offset + strips inner ∧
      offset + inner.length + strips outer ≤ outer.length + strips inner := by
  have hlen : offset + inner.length ≤ outer.length := by
    have hle := h.length_le
    have hpos := List.length_pos_iff.2 hne
    rw [List.length_drop] at hle
    omega
  have hinner := two_mul_strips_le inner
  fun_induction strips outer generalizing offset with
  | case2 outer _ => omega
  | case1 outer raw hstrip ih =>
    obtain ⟨rfl, hraw⟩ := strip?_eq_some_iff.1 hstrip
    by_cases hwhole : inner = '(' :: (raw ++ [')'])
    · subst hwhole
      rw [strips_of_some hstrip]
      omega
    · -- otherwise the text keeps clear of both parentheses
      cases offset with
      | zero => exact absurd (eq_of_prefix_pair hne hbalanced hraw h) hwhole
      | succ offset =>
        rw [List.drop_succ_cons] at h
        have hshort : offset + inner.length ≤ raw.length := by
          rcases Nat.lt_or_ge raw.length (offset + inner.length) with hlt | hle
          · refine absurd ?_ (not_suffix_pair hne hbalanced hraw)
            have hall : inner = (raw ++ [')']).drop offset := by
              refine h.eq_of_length ?_
              simp at hlen ⊢
              omega
            rw [hall]
            exact List.drop_suffix _ _
          · exact hle
        have hstands : inner <+: raw.drop offset := by
          rw [List.drop_append_of_le_length (by omega)] at h
          exact List.prefix_of_prefix_length_le h (List.prefix_append _ _)
            (by rw [List.length_drop]; omega)
        have := ih hstands (by omega)
        simp only [List.length_cons, List.length_append, List.length_nil]
        omega

end

/-! ## Trees of nested texts -/

/-- The nodes that the walk reaches are reported without spans, where their texts stand. The texts are
not empty and balanced, and those of children lie inside those of their parents. -/
structure Node.Nested (source : Text) (tree : Node) : Prop where
  kind : ∀ c ∈ (Cursor.root tree).preorder, c.kind ≠ "ConcatOp"
  reported : ∀ c ∈ (Cursor.root tree).preorder, ∃ raw start,
    c.node.placement.Reports source raw start ∧ raw ≠ [] ∧ Bracket.round.Balanced raw
  inside : ∀ c ∈ (Cursor.root tree).preorder, ∀ d ∈ c.children, ∃ outer start inner start',
    c.node.placement.Reports source outer start ∧ d.node.placement.Reports source inner start' ∧
      start ≤ start' ∧ start' + inner.length ≤ start + outer.length

def Placement.Within (p q : Placement) : Prop :=
  ∃ inner outer, p.span = some inner ∧ q.span = some outer ∧
    outer.start ≤ inner.start ∧ inner.start ≤ inner.stop ∧ inner.stop ≤ outer.stop

theorem Placement.Within.trans {p q r : Placement} (h : p.Within q) (h' : q.Within r) :
    p.Within r := by
  obtain ⟨inner, middle, hinner, hmiddle, hstart, hle, hstop⟩ := h
  obtain ⟨middle', outer, hmiddle', houter, hstart', -, hstop'⟩ := h'
  obtain rfl : middle = middle' := Option.some.inj (hmiddle.symm.trans hmiddle')
  exact ⟨inner, outer, hinner, houter, by omega, hle, by omega⟩

section
variable {source raw : Text} {window : Window} {tree : Node} {a : Annotated} {c d : Cursor}
  {start : Nat}

theorem span_of_reports (ha : annotate source window tree = .ok a)
    (hc : c ∈ (Cursor.root tree).preorder) (hkind : c.kind ≠ "ConcatOp")
    (h : c.node.placement.Reports source raw start) :
    (a.annotation.progress.mark c).placement.span =
      some ⟨start + strips raw, start + raw.length - strips raw⟩ := by
  have hfinal := final?_mark ha hc
  rw [Locator.final?_own (Cursor.rule_own.2 h.text), Locator.settled?] at hfinal
  have hrole : c.role.kind ≠ "ConcatOp" := hkind
  obtain ⟨hrefused, hsettled⟩ := settle_of_reports window hrole h
  simp only [Option.ite_none_right_eq_some, Option.isNone_iff_eq_none, Option.some.injEq] at hfinal
  obtain ⟨hfault, hplace⟩ := hfinal
  rw [← hplace]
  cases hstrip : strip? raw with
  | error e =>
    rw [hrefused e hstrip] at hfault
    cases hfault
  | ok inner? => exact (hsettled inner? hstrip).2

theorem Text.StandsAt.inside_of_le {outer inner : Text} {start' : Nat}
    (houter : outer.StandsAt source start) (hinner : inner.StandsAt source start')
    (hstart : start ≤ start') (hstop : start' + inner.length ≤ start + outer.length) :
    inner <+: outer.drop (start' - start) := by
  obtain ⟨rest, hrest⟩ := houter
  have hdrop : source.drop start' = outer.drop (start' - start) ++ rest := by
    rw [show start' = start + (start' - start) by omega, ← List.drop_drop, ← hrest,
      List.drop_append_of_le_length (by omega)]
    congr 2
    omega
  unfold Text.StandsAt at hinner
  rw [hdrop] at hinner
  refine List.prefix_of_prefix_length_le hinner (List.prefix_append _ _) ?_
  rw [List.length_drop]
  omega

theorem child_within (h : tree.Nested source) (ha : annotate source window tree = .ok a)
    (hc : c ∈ (Cursor.root tree).preorder) (hd : d ∈ c.children) :
    (a.annotation.progress.mark d).placement.Within (a.annotation.progress.mark c).placement := by
  have hd' := Cursor.mem_preorder_trans hc (Cursor.mem_preorder_of_mem_children hd)
  obtain ⟨outer, start, inner, start', houter, hinner, hstart, hstop⟩ := h.inside c hc d hd
  obtain ⟨inner', _, hinner', hne, hbalanced⟩ := h.reported d hd'
  obtain rfl : inner = inner' := Option.some.inj (hinner.text.symm.trans hinner'.text)
  have hinside := houter.stands.inside_of_le hinner.stands hstart hstop
  have hwithin := strips_within hne hbalanced hinside
  have hpairs := two_mul_strips_le inner
  refine ⟨_, _, span_of_reports ha hd' (h.kind d hd') hinner,
    span_of_reports ha hc (h.kind c hc) houter, ?_, ?_, ?_⟩ <;> simp only <;> omega

theorem below_within (h : tree.Nested source) (ha : annotate source window tree = .ok a) {c : Cursor}
    (hc : c ∈ (Cursor.root tree).preorder) (hd : d ∈ c.preorder) :
    (a.annotation.progress.mark d).placement.Within (a.annotation.progress.mark c).placement := by
  rw [Cursor.preorder_eq, List.mem_cons] at hd
  rcases hd with rfl | hd
  · obtain ⟨raw, start, hraw, -, -⟩ := h.reported d hc
    have hspan := span_of_reports ha hc (h.kind d hc) hraw
    have hpairs := two_mul_strips_le raw
    refine ⟨_, _, hspan, hspan, ?_, ?_, ?_⟩ <;> simp only <;> omega
  · obtain ⟨child, hchild, hd⟩ := List.mem_flatMap.1 hd
    have hsize := Cursor.sizeOf_children_lt hchild
    have hbelow := below_within h ha
      (Cursor.mem_preorder_trans hc (Cursor.mem_preorder_of_mem_children hchild)) hd
    exact hbelow.trans (child_within h ha hc hchild)
termination_by sizeOf c.node

/-- **Nested spans**: where the texts of a tree are nested, balanced and reported where they stand,
the spans of all nodes below a node, its children and what is below them, lie in the span of that
node after the annotation, whatever parentheses each of them has lost. -/
theorem spans_nested (h : tree.Nested source) (ha : annotate source window tree = .ok a) :
    ∀ c ∈ a.nodes, ∀ d ∈ c.preorder, d.node.placement.Within c.node.placement := by
  intro c' hc' d' hd'
  rw [nodes_eq ha] at hc'
  obtain ⟨c, hc, rfl⟩ := List.mem_map.1 hc'
  rw [(Progress.mirror_placed _).preorder_map trivial] at hd'
  obtain ⟨d, hd, rfl⟩ := List.mem_map.1 hd'
  rw [Progress.placement_placed, Progress.placement_placed]
  exact below_within h ha hc hd

end

def Node.parenthesized : Node :=
  .mk "SeqOp" { raw := some ['(', '(', 'a', ')', '(', 'b', ')', ')'], line := some 1, column := some 1 }
    [("left", .node (.mk "Identifier"
      { raw := some ['(', 'a', ')'], line := some 1, column := some 2 } [])),
    ("right", .node (.mk "Identifier"
      { raw := some ['(', 'b', ')'], line := some 1, column := some 5 } []))]

/-- The spans of both names lie in that of the whole, which has lost its own pair only. -/
theorem spans_nested_parenthesized :
    let source := ['(', '(', 'a', ')', '(', 'b', ')', ')']
    Node.parenthesized.Nested source ∧ ∃ a, annotate source .standard .parenthesized = .ok a ∧
      ∀ c ∈ a.nodes, ∀ d ∈ c.preorder, d.node.placement.Within c.node.placement := by
  intro source
  have hpre := Cursor.preorder_of_leaves (c := .root .parenthesized) (by decide)
  have hroot : (Cursor.root .parenthesized).node.placement.Reports source source 0 :=
    ⟨rfl, rfl, ⟨1, 1, rfl, rfl, by decide⟩, by decide⟩
  have hleft : ({ raw := some ['(', 'a', ')'], line := some 1, column := some 2 } : Placement).Reports
      source ['(', 'a', ')'] 1 := ⟨rfl, rfl, ⟨1, 2, rfl, rfl, by decide⟩, by decide⟩
  have hright : ({ raw := some ['(', 'b', ')'], line := some 1, column := some 5 } : Placement).Reports
      source ['(', 'b', ')'] 4 := ⟨rfl, rfl, ⟨1, 5, rfl, rfl, by decide⟩, by decide⟩
  have hnested : Node.parenthesized.Nested source := by
    constructor <;> rw [hpre]
    · decide
    · simp only [List.forall_mem_cons, show (Cursor.root .parenthesized).children = [_, _] from rfl]
      exact ⟨⟨_, _, hroot, by decide, by decide⟩, ⟨_, _, hleft, by decide, by decide⟩,
        ⟨_, _, hright, by decide, by decide⟩, by simp⟩
    · simp only [List.forall_mem_cons, show (Cursor.root .parenthesized).children = [_, _] from rfl]
      refine ⟨⟨⟨_, _, _, _, hroot, hleft, by decide, by decide⟩,
        ⟨_, _, _, _, hroot, hright, by decide, by decide⟩, by simp⟩, ?_, ?_, by simp⟩ <;>
        exact fun d hd => absurd hd List.not_mem_nil
  have hok : ∃ a, annotate source .standard .parenthesized = .ok a := by
    rw [annotate_ok_iff, hpre]
    simp only [List.forall_mem_cons, show (Cursor.root .parenthesized).children = [_, _] from rfl]
    refine ⟨⟨?_, rfl⟩, ⟨?_, rfl⟩, ⟨?_, rfl⟩, by simp⟩ <;>
      decide +kernel
  obtain ⟨a, ha⟩ := hok
  exact ⟨hnested, a, ha, spans_nested hnested ha⟩

end SyntaxSpans
