import SyntaxSpans.Proofs.Fixpoint
import SyntaxSpans.Proofs.Searching

/-!
# Wider windows

The search takes the first text that it finds, going backwards, so a wider window changes nothing about a
search that succeeds (`hits_widen`). It may change what a search that fails goes on to, but only by way
of parentheses that wrap a text, of spans that read something else, and of `step`s. In a tree without these a
node that ends up somewhere ends up there with every wider window (`final?_widen`). The invariant that goes
along the operands is `Placement.Unwrapped`: neither a text, nor the source from where a span begins, starts
with a parenthesis. An operator keeps it because its text begins where its left operand does, and a negation
because it takes over what its operand has, be it found already or the text of a concatenation that was left
alone.
-/

namespace SyntaxSpans

/-- The node was reported without a span, is no `step`, and has no text, or one that neither is empty nor
begins with a parenthesis. -/
structure Cursor.Sought (c : Cursor) : Prop where
  span : c.node.placement.span = none
  step : c.isIn "step" = false
  text : ∀ raw, c.node.placement.raw = some raw → raw ≠ [] ∧ raw.head? ≠ some '('

/-- No parenthesis stands at the beginning of the text, nor where the span begins, which reads the text.
Only a text with a span may be empty. -/
structure Placement.Unwrapped (source : Text) (q : Placement) : Prop where
  text : ∀ raw, q.raw = some raw → raw.head? ≠ some '('
  span : ∀ s, q.span = some s → 0 ≤ s.start ∧ (source.drop s.start.toNat).head? ≠ some '(' ∧
    q.raw = some (s.read source)
  unplaced : q.span = none → q.raw ≠ some []

/-! ## Texts without a parenthesis in front -/

section
variable {source raw : Text} {s : Span}

theorem strip?_of_head (h : raw.head? ≠ some '(') : strip? raw = .ok none := by
  unfold strip?
  split
  · simp at h
  · rfl

/-- A text begins like the source from where it is read. -/
theorem head?_read (h0 : 0 ≤ s.start) (h : (source.drop s.start.toNat).head? ≠ some '(') :
    (s.read source).head? ≠ some '(' := by
  rw [Span.read, slice, List.drop_take, Span.cut_eq_min h0]
  rcases Nat.le_total s.start.toNat source.length with hle | hle
  · rw [Nat.min_eq_left hle, List.head?_take]
    split
    · simp
    · exact h
  · rw [Nat.min_eq_right hle, List.drop_length, List.take_nil]
    simp

theorem head?_of_standsAt {start : Nat} (hne : raw ≠ []) (h : raw.StandsAt source start) :
    (source.drop start).head? = raw.head? := by
  obtain ⟨rest, hrest⟩ := h
  rw [← hrest, List.head?_append_of_ne_nil _ hne]

end

namespace Locator

section
variable {source raw : Text} {window wider : Window} (hle : window.size ≤ wider.size)
include hle

/-- **A search that succeeds** ends at the same place with a wider window. -/
theorem hits_widen {reported k : Int}
    (h : IsGreatest ((ofSource source window).hits raw reported window.size) k) :
    IsGreatest ((ofSource source wider).hits raw reported wider.size) k := by
  obtain ⟨⟨hlow, hhigh, h0, hk⟩, hlast⟩ := h
  refine ⟨⟨by omega, hhigh, h0, hk⟩, fun j ⟨_, hj, hj0, hread⟩ => ?_⟩
  by_contra hlt
  -- a later hit is one of the narrow window as well
  exact hlt (hlast ⟨by omega, hj, hj0, hread⟩)

theorem search_widen {a a' : Anchor} (h : (ofSource source window).search raw a = .ok a')
    (hreads : (ofSource source window).reads a'.span raw = true) :
    (ofSource source wider).search raw a = .ok a' := by
  by_cases hmiss : (ofSource source window).reads a.span raw = true
  · rw [search_of_reads hmiss] at h
    rw [search_of_reads (l := ofSource source wider) hmiss, h]
  · have hmiss := Bool.eq_false_iff.2 hmiss
    obtain ⟨line, column, first, start, hline, hcolumn, hfirst, hlast, rfl⟩ :=
      found_of_search hmiss h hreads
    have hplaced : (ofSource source wider).PlacedAt a raw ⟨start, start + raw.length⟩ :=
      .found hmiss hline hcolumn (LineMap.offset?_eq_some_iff.2 ⟨first, hfirst, rfl⟩)
        (hits_widen hle hlast) rfl
    exact (search_of_placedAt hplaced).1

end

/-! ## Settling without parentheses -/

section
variable {l : Locator} {role : Role} {raw raw' : Text} {a a' : Anchor}

/-- A text without a parenthesis in front is settled where it is found. -/
theorem Settles.found (hstep : role.isStep = false) (hplain : strip? raw = .ok none)
    (hgoes : ¬ (a.span = none ∧ role.kind = "ConcatOp")) (h : l.Settles role raw a raw' a') :
    raw' = raw ∧ l.search raw a = .ok a' ∧ l.reads a'.span raw = true := by
  cases h with
  | skipped hspan hkind => exact absurd ⟨hspan, hkind⟩ hgoes
  | exact hsearch hreads _ => exact ⟨rfl, hsearch, hreads⟩
  | inset _ _ hstrip _ =>
    rw [hplain] at hstrip
    cases hstrip
  | step hisStep _ _ =>
    rw [hstep] at hisStep
    cases hisStep
  | strip _ _ hstrip _ =>
    rw [hplain] at hstrip
    cases hstrip

theorem settled?_of_search (hplain : strip? raw = .ok none)
    (hgoes : ¬ (a.span = none ∧ role.kind = "ConcatOp")) (hsearch : l.search raw a = .ok a')
    (hreads : l.reads a'.span raw = true) :
    l.settled? role (raw, a) = some { a' with raw := some raw } := by
  have hkind : a.span.isNone = true → role.kind ≠ "ConcatOp" := fun hspan hkind =>
    hgoes ⟨Option.isNone_iff_eq_none.1 hspan, hkind⟩
  rw [← settled?_of_atRest (.exact hreads hplain), settled?, settled?,
    settle_of_search hkind hsearch hreads]

end

section
variable {source raw : Text} {window wider : Window}

/-- What the search gives is unwrapped if it was before. -/
theorem unwrapped_of_search {p : Placement} {a : Anchor} (hp : p.Unwrapped source)
    (hraw : p.raw = some raw) (hsearch : (ofSource source window).search raw p.toAnchor = .ok a) :
    Placement.Unwrapped source { a with raw := some raw } := by
  have hsame : ({ p.toAnchor with raw := some raw } : Placement) = p := by rw [← hraw]
  rcases search_ok hsearch with rfl | ⟨k, h0, rfl, hreads⟩
  · rwa [hsame]
  · cases hspan : p.span with
    | some s =>
      -- a span reads the text, so nothing is searched for
      have hread : (ofSource source window).reads p.span raw = true := by
        obtain ⟨-, -, htext⟩ := hp.span s hspan
        rw [hraw, Option.some.injEq] at htext
        rw [hspan, reads, beq_iff_eq, htext]
        rfl
      rw [search_of_reads hread, Except.ok.injEq] at hsearch
      rw [← hsearch, hsame]
      exact hp
    | none =>
      obtain ⟨start, rfl⟩ := Int.eq_ofNat_of_zero_le h0
      have hne : raw ≠ [] := fun hempty => hp.unplaced hspan (hempty ▸ hraw)
      refine ⟨fun raw' hraw' => hp.text raw' (hraw.trans hraw'), fun s hs => ?_, fun hnone => by cases hnone⟩
      obtain rfl := Option.some.inj hs
      refine ⟨h0, ?_, ?_⟩
      · have hbegins := head?_of_standsAt hne (reads_iff_standsAt.1 hreads)
        exact fun hparen => hp.text raw hraw (hbegins.symm.trans hparen)
      · exact congrArg some (beq_iff_eq.1 hreads).symm

theorem unwrapped_of_between {p p' : Placement} {text : Text × Anchor} (hp : p.Unwrapped source)
    (h : (ofSource source window).between? p p' = some text) :
    Placement.Unwrapped source { text.2 with raw := some text.1 } := by
  unfold between? at h
  split at h
  · next first last hfirst _ =>
    obtain rfl := Option.some.inj h
    obtain ⟨h0, hbegins, -⟩ := hp.span first hfirst
    refine ⟨fun raw hraw => ?_, fun s hs => ?_, fun hnone => by cases hnone⟩
    · obtain rfl := Option.some.inj hraw
      exact head?_read h0 hbegins
    · obtain rfl := Option.some.inj hs
      exact ⟨h0, hbegins, rfl⟩
  · cases h

variable (hle : window.size ≤ wider.size)
include hle

/-- A text that is settled is settled at the same place with a wider window. -/
theorem settled?_widen {role : Role} {p q : Placement} (hstep : role.isStep = false)
    (hp : p.Unwrapped source) (hraw : p.raw = some raw)
    (h : (ofSource source window).settled? role (raw, p.toAnchor) = some q) :
    (ofSource source wider).settled? role (raw, p.toAnchor) = some q ∧ q.Unwrapped source := by
  have hplain := strip?_of_head (hp.text raw hraw)
  by_cases hskip : p.span = none ∧ role.kind = "ConcatOp"
  · rw [settled?_of_atRest (.skipped hskip.1 hskip.2), Option.some.injEq] at h
    rw [settled?_of_atRest (.skipped hskip.1 hskip.2), ← h, ← hraw]
    exact ⟨rfl, hp⟩
  · obtain ⟨raw', -, hsettles⟩ := settles_of_settled? h
    obtain ⟨-, hsearch, hreads⟩ := hsettles.found hstep hplain hskip
    rw [settled?_of_search hplain hskip hsearch hreads] at h
    rw [settled?_of_search hplain hskip (search_widen hle hsearch hreads) hreads]
    exact ⟨h, Option.some.inj h ▸ unwrapped_of_search hp hraw hsearch⟩

/-- **Where a node ends up** it ends up with every wider window. -/
theorem final?_widen {c : Cursor} {q : Placement} (hall : ∀ d, c.Contains d → d.Sought)
    (h : (ofSource source window).final? c = some q) :
    (ofSource source wider).final? c = some q ∧ q.Unwrapped source := by
  have hself := hall c .refl
  -- all nodes below an operand are below the node, so what is assumed of them carries over
  have below : ∀ {d : Cursor} {p : Placement}, d ∈ c.operands → sizeOf d.node < sizeOf c.node →
      (ofSource source window).final? d = some p →
      (ofSource source wider).final? d = some p ∧ p.Unwrapped source := fun hd _ hp => by
    obtain ⟨name, -, hchild⟩ := Cursor.child_of_mem_operands hd
    exact final?_widen (fun e he => hall e ((Cursor.Contains.refl.child hchild).trans he)) hp
  cases hr : c.rule with
  | own raw =>
    rw [final?_own hr] at h ⊢
    have hraw := Cursor.rule_own.1 hr
    refine settled?_widen hle hself.step ⟨fun raw' hraw' => (hself.text raw' hraw').2, ?_, ?_⟩ hraw h
    · intro s hs
      rw [hself.span] at hs
      cases hs
    · exact fun _ hempty => (hself.text [] hempty).1 rfl
  | bare =>
    rw [final?_bare hr] at h ⊢
    have hraw := (Cursor.rule_bare.1 hr).1
    obtain rfl := Option.some.inj h
    refine ⟨rfl, fun raw hraw' => ?_, fun s hs => ?_, fun _ hempty => ?_⟩
    · rw [hraw] at hraw'
      cases hraw'
    · rw [hself.span] at hs
      cases hs
    · rw [hraw] at hempty
      cases hempty
  | negation operand =>
    have hmem : operand ∈ c.operands := by simp [Cursor.operands_negation hr]
    rw [final?_negation hr] at h
    -- nothing is searched for until the operand has its place, which is the same in both windows
    obtain ⟨text, hgiven, hsettled⟩ := Option.bind_eq_some_iff.1 h
    obtain ⟨p, hp, htext⟩ := Option.bind_eq_some_iff.1 hgiven
    obtain ⟨raw, hraw, rfl⟩ := Option.map_eq_some_iff.1 htext
    obtain ⟨hwider, hunwrapped⟩ := below hmem (Cursor.sizeOf_operand_lt hmem) hp
    rw [final?_negation hr, hwider, Option.bind_some, htext, Option.bind_some]
    exact settled?_widen hle hself.step hunwrapped hraw hsettled
  | operator left right =>
    have hleft : left ∈ c.operands := by simp [Cursor.operands_operator hr]
    have hright : right ∈ c.operands := by simp [Cursor.operands_operator hr]
    rw [final?_operator hr] at h
    obtain ⟨text, hgiven, hsettled⟩ := Option.bind_eq_some_iff.1 h
    obtain ⟨p, hp, hgiven⟩ := Option.bind_eq_some_iff.1 hgiven
    obtain ⟨p', hp', hbetween⟩ := Option.bind_eq_some_iff.1 hgiven
    obtain ⟨hwider, hunwrapped⟩ := below hleft (Cursor.sizeOf_operand_lt hleft) hp
    obtain ⟨hwider', -⟩ := below hright (Cursor.sizeOf_operand_lt hright) hp'
    rw [final?_operator hr, hwider, hwider', Option.bind_some, Option.bind_some,
      show (ofSource source wider).between? p p' = some text from hbetween, Option.bind_some]
    exact settled?_widen hle hself.step (unwrapped_of_between hunwrapped hbetween) rfl hsettled
  | stuck =>
    rw [final?_stuck hr] at h
    cases h
termination_by sizeOf c.node

end

end Locator

/-- **A wider window is safe**: a tree that can be annotated with a window can be annotated with every wider
one, and all nodes end up at the same places, if none of them was reported with a span, none is a `step`, and
no text is empty or begins with a parenthesis. -/
theorem annotate_widen {source : Text} {window wider : Window} (hle : window.size ≤ wider.size) {j : Json}
    {tree : Node} (hj : j.Distinct) (htree : Node.ofJson j = .ok tree)
    (hsought : ∀ c, (Cursor.root tree).Contains c → c.Sought) {a : Annotated}
    (h : annotate source window tree = .ok a) :
    ∃ b, annotate source wider tree = .ok b ∧ b.tree = a.tree := by
  have hfinal : ∀ {c : Cursor} {q : Placement}, (Cursor.root tree).Contains c →
      (Locator.ofSource source window).final? c = some q →
      (Locator.ofSource source wider).final? c = some q := fun hc hq =>
    (Locator.final?_widen hle (fun d hd => hsought d (hc.trans hd)) hq).1
  obtain ⟨b, hb⟩ : ∃ b, annotate source wider tree = .ok b := by
    rw [annotate_ok_iff]
    intro c hc
    obtain ⟨hplaced, hsound⟩ := annotate_ok_iff.1 ⟨a, h⟩ c hc
    obtain ⟨q, hq⟩ := Option.ne_none_iff_exists'.1 hplaced
    exact ⟨by rw [hfinal (Cursor.contains_of_mem_preorder hc) hq]; simp, hsound⟩
  refine ⟨b, hb, ?_⟩
  have hnarrow := annotate_completes h
  have hwider := annotate_completes hb
  rw [(annotate_ok.1 h).2, (annotate_ok.1 hb).2]
  refine Progress.place_congr (regular_of_ofJson hj htree) fun d hd => ?_
  by_cases hdraw : ∃ c ∈ (Cursor.root tree).preorder, c.Draws d
  · have hplace := hfinal hd (hnarrow.drawn d hd hdraw)
    exact Option.some.inj ((hwider.drawn d hd hdraw).symm.trans hplace)
  · rw [hwider.rest d hd hdraw, hnarrow.rest d hd hdraw]

theorem mem_preorder_sum {d : Cursor} (h : (Cursor.root .sum).Contains d) :
    d ∈ (Cursor.root .sum).preorder := by
  induction h with
  | refl => exact Cursor.mem_preorder_self _
  | @down d e name _ he ih =>
    obtain ⟨v, hv, p, hp, rfl⟩ := Cursor.mem_nodesIn.1 he
    obtain ⟨l, r, hsplit, -⟩ := List.lookup_eq_some_iff.1 hv
    have hmem : (name, v) ∈ d.node.fields := by rw [hsplit]; simp
    rw [preorder_sum] at ih ⊢
    simp only [List.mem_cons, List.not_mem_nil, or_false] at ih
    rcases ih with rfl | rfl | rfl
    · simp only [Cursor.root, Node.sum, Node.fields_mk, List.mem_cons, Prod.mk.injEq,
        List.not_mem_nil, or_false] at hmem
      rcases hmem with ⟨rfl, rfl⟩ | ⟨rfl, rfl⟩
      · rw [List.mem_singleton.1 hp]
        exact List.mem_cons_of_mem _ List.mem_cons_self
      · rw [List.mem_singleton.1 hp]
        exact List.mem_cons_of_mem _ (List.mem_cons_of_mem _ List.mem_cons_self)
    · cases hmem
    · cases hmem

/-- A sum that is annotated with the smallest window is annotated with the standard one. -/
theorem annotate_widen_sum : ∃ a b, annotate ['a', '+', 'b'] ⟨1, by decide⟩ .sum = .ok a ∧
    annotate ['a', '+', 'b'] .standard .sum = .ok b ∧ b.tree = a.tree := by
  obtain ⟨a, ha⟩ : ∃ a, annotate ['a', '+', 'b'] ⟨1, by decide⟩ .sum = .ok a := by
    rw [annotate_ok_iff, preorder_sum]
    simp only [List.forall_mem_cons]
    refine ⟨⟨?_, rfl⟩, ⟨?_, rfl⟩, ⟨?_, rfl⟩, by simp⟩ <;>
      decide +kernel
  have hsought : ∀ c, (Cursor.root .sum).Contains c → c.Sought := by
    intro c hc
    have hin := mem_preorder_sum hc
    rw [preorder_sum] at hin
    simp only [List.mem_cons, List.not_mem_nil, or_false] at hin
    rcases hin with rfl | rfl | rfl
    · exact ⟨rfl, rfl, fun raw hraw => by cases hraw⟩
    · exact ⟨rfl, rfl, fun raw hraw => by cases hraw; decide⟩
    · exact ⟨rfl, rfl, fun raw hraw => by cases hraw; decide⟩
  have hle : (⟨1, by decide⟩ : Window).size ≤ Window.standard.size := by decide
  obtain ⟨b, hb, htree⟩ := annotate_widen hle distinct_sum rfl hsought ha
  exact ⟨a, b, ha, hb, htree⟩

end SyntaxSpans
