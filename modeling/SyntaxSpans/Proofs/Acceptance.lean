import SyntaxSpans.Proofs.Grammar
import SyntaxSpans.Proofs.Introductions
import SyntaxSpans.Proofs.WalkFault

/-!
# Which trees of a grammar are annotated

The nodes of a grammar whose kinds are not known here bind no names and draw on no others, and all of
them are walked. Each is reported where its text stands, so the only thing that can go wrong is that its
parentheses are taken for a pair: a text that leaves the parenthesis open that it begins with, as the
text of a string literal may, ends the annotation (`grammar_annotated_iff`).
-/

namespace SyntaxSpans

open Utf8

/-- The text leaves the parenthesis open that it begins with. Every parenthesis counts, whatever it means
in the source. -/
def Text.LeavesOpen (raw : Text) : Prop :=
  ∃ rest, raw = '(' :: rest ∧ Bracket.round.StaysIn 1 rest

def GrammarNode.text (source : Text) (g : GrammarNode) : Text :=
  slice source (g.firstChar source) (g.lastChar source)

theorem leavesOpen_iff {raw : Text} : raw.LeavesOpen ↔ ∃ e, strip? raw = .error e := by
  simp only [strip?_eq_error_iff, exists_eq_left, Text.LeavesOpen]

/-! ## Nodes of unknown kinds -/

namespace GrammarNode

section
variable {bytes : Bytes} {g d : GrammarNode} {c : Cursor}

theorem ConvertsTo.kind (h : g.ConvertsTo bytes c.node) : c.kind = g.kind := by
  obtain ⟨p, ns, -, -, hn⟩ := convertsTo_iff.1 h
  rw [Cursor.kind, hn]
  rfl

theorem ConvertsTo.children (h : g.ConvertsTo bytes c.node) (hkind : Node.knownFields? g.kind = none) :
    c.children = c.nodesIn "children" := by
  obtain ⟨p, ns, -, -, hn⟩ := convertsTo_iff.1 h
  have hfields : c.node.childFields = ["children"] := by
    rw [hn, Node.childFields, Node.kind_mk, hkind]
    rfl
  rw [Cursor.children, hfields, List.flatMap_singleton]

theorem ConvertsTo.mem_preorder {g : GrammarNode} {c : Cursor} (h : g.ConvertsTo bytes c.node)
    (hkinds : ∀ d ∈ g.nodes, Node.knownFields? d.kind = none) (hd : d ∈ g.nodes) :
    ∃ e ∈ c.preorder, d.ConvertsTo bytes e.node := by
  rcases mem_nodes.1 hd with rfl | ⟨child, hchild, hd⟩
  · exact ⟨c, Cursor.mem_preorder_self c, h⟩
  · have := sizeOf_lt_of_mem_children hchild
    obtain ⟨f, hf, hconvert⟩ := exists_right_of_forall₂ h.nodesIn _ hchild
    obtain ⟨e, he, hconvert⟩ := hconvert.mem_preorder
      (fun d hd => hkinds d (mem_nodes.2 (Or.inr ⟨child, hchild, hd⟩))) hd
    rw [← h.children (hkinds g (mem_nodes_self g))] at hf
    exact ⟨e, Cursor.mem_preorder_trans (Cursor.mem_preorder_of_mem_children hf) he, hconvert⟩
termination_by sizeOf g

end

section
variable {source : Text} {g : GrammarNode} {c : Cursor} {window : Window}

/-- **One node** of an unknown kind ends the walk just if its text is refused. -/
theorem ConvertsTo.visitFault? (hg : g.Consistent source)
    (hkind : Node.knownFields? g.kind = none) (h : g.ConvertsTo (encode source) c.node) :
    ((Locator.ofSource source window).visitFault? c = none ↔ ¬ (g.text source).LeavesOpen) ∧
    ∀ fault, (Locator.ofSource source window).visitFault? c = some fault →
      fault = .bracket (.unmatched .round 0) := by
  obtain ⟨p, raw, hp, hraw, -, hreports⟩ := placement_of_consistent hg
  obtain ⟨p', ns, hp', -, hn⟩ := convertsTo_iff.1 h
  obtain rfl : p = p' := Except.ok.inj (hp.symm.trans hp')
  have hplace : c.node.placement = p := by rw [hn]; rfl
  have hrule := Cursor.rule_own.2 (hplace ▸ hreports.text)
  have hunknown : Node.knownFields? c.kind = none := by rw [h.kind]; exact hkind
  have hbinds : c.introduced.fault = none := by rw [Cursor.introduced_of_unknown hunknown]; rfl
  -- the kind of concatenations is known, so their exception does not apply
  have hconcat : c.role.kind ≠ "ConcatOp" := by
    intro heq
    rw [show c.kind = "ConcatOp" from heq] at hunknown
    exact absurd hunknown (by decide)
  rw [Locator.visitFault?_of_operands hbinds (Cursor.operands_own hrule), Locator.ownFault?]
  simp only [Locator.given?, hrule, hplace]
  obtain ⟨hrefused, hsettled⟩ := settle_of_reports window hconcat hreports
  rw [GrammarNode.text, ← hraw, leavesOpen_iff]
  cases hstrip : strip? raw with
  | error e =>
    rw [hrefused e hstrip, (strip?_eq_error_iff.1 hstrip).1]
    simp
  | ok inner? =>
    rw [(hsettled inner? hstrip).1]
    simp

end

end GrammarNode

/-! ## Whole trees -/

section
variable {source : Text} {tree : GrammarNode}

/-- The walk over a converted tree comes to its end, or to a text that is refused. -/
theorem firstFault?_of_grammar (window : Window) {n : Node} (h : ∀ g ∈ tree.nodes, g.Consistent source)
    (hkinds : ∀ g ∈ tree.nodes, Node.knownFields? g.kind = none)
    (hn : tree.ConvertsTo (encode source) n) :
    ((Locator.ofSource source window).firstFault? n = none ↔
      ∀ g ∈ tree.nodes, ¬ (g.text source).LeavesOpen) ∧
    ∀ fault, (Locator.ofSource source window).firstFault? n = some fault →
      fault = .bracket (.unmatched .round 0) := by
  have hvisit : ∀ c ∈ (Cursor.root n).preorder, ∃ g ∈ tree.nodes,
      ((Locator.ofSource source window).visitFault? c = none ↔ ¬ (g.text source).LeavesOpen) ∧
      ∀ fault, (Locator.ofSource source window).visitFault? c = some fault →
        fault = .bracket (.unmatched .round 0) := by
    intro c hc
    obtain ⟨g, hg, hconvert⟩ := hn.of_contains (r := .root n) (Cursor.contains_of_mem_preorder hc)
    exact ⟨g, hg, hconvert.visitFault? (h g hg) (hkinds g hg)⟩
  refine ⟨?_, fun fault hfault => ?_⟩
  · rw [Locator.firstFault?, List.findSome?_eq_none_iff]
    constructor
    · intro hall g hg
      obtain ⟨c, hc, hconvert⟩ := hn.mem_preorder (c := .root n) hkinds hg
      exact (hconvert.visitFault? (h g hg) (hkinds g hg)).1.1 (hall c hc)
    · intro hall c hc
      obtain ⟨g, hg, hnone, -⟩ := hvisit c hc
      exact hnone.2 (hall g hg)
  · obtain ⟨c, hc, hsome⟩ := List.exists_of_findSome?_eq_some hfault
    obtain ⟨g, -, -, hbracket⟩ := hvisit c hc
    exact hbracket fault hsome

/-- **Which trees of a grammar are annotated**: those of which no node leaves the parenthesis open that
its text begins with. All others end the annotation with a bracket that has no counterpart, although
every text stands right where it is reported. -/
theorem grammar_annotated_iff (h : ∀ g ∈ tree.nodes, g.Consistent source)
    (hkinds : ∀ g ∈ tree.nodes, Node.knownFields? g.kind = none) :
    ∃ n, Node.ofGrammar source tree = .ok n ∧ ∀ window,
      ((∃ a, annotate source window n = .ok a) ↔ ∀ g ∈ tree.nodes, ¬ (g.text source).LeavesOpen) ∧
      ∀ fault, annotate source window n = .error fault → fault = .bracket (.unmatched .round 0) := by
  obtain ⟨n, hn⟩ := GrammarNode.convertsTo_of_consistent h
  refine ⟨n, hn, fun window => ?_⟩
  obtain ⟨hnone, hbracket⟩ := firstFault?_of_grammar window h hkinds hn
  exact ⟨annotate_ok_iff_firstFault?.trans hnone,
    fun fault hfault => hbracket fault (annotate_error_iff.1 hfault)⟩

def GrammarNode.grouped : GrammarNode :=
  .mk "parenthesized_expression" 0 3 0 0 [.mk "identifier" 1 2 0 1 []]

/-- Whether it is annotated depends on its texts only. -/
theorem grammar_annotated_iff_grouped :
    let source := ['(', 'x', ')']
    ((∀ g ∈ GrammarNode.grouped.nodes, g.Consistent source) ∧
      ∀ g ∈ GrammarNode.grouped.nodes, Node.knownFields? g.kind = none) ∧
    ∃ n, Node.ofGrammar source .grouped = .ok n ∧ ∀ window,
      ((∃ a, annotate source window n = .ok a) ↔
        ∀ g ∈ GrammarNode.grouped.nodes, ¬ (g.text source).LeavesOpen) ∧
      ∀ fault, annotate source window n = .error fault → fault = .bracket (.unmatched .round 0) := by
  intro source
  have hnodes : GrammarNode.grouped.nodes = [.grouped, .mk "identifier" 1 2 0 1 []] := by
    simp only [GrammarNode.grouped, GrammarNode.nodes, GrammarNode.nodesAll, List.append_nil]
  have hconsistent : ∀ g ∈ GrammarNode.grouped.nodes, g.Consistent source := by
    rw [hnodes]
    decide
  have hkinds : ∀ g ∈ GrammarNode.grouped.nodes, Node.knownFields? g.kind = none := by
    rw [hnodes]
    decide
  exact ⟨⟨hconsistent, hkinds⟩, grammar_annotated_iff hconsistent hkinds⟩

/-- A string literal with an opening parenthesis in it. -/
def GrammarNode.literal : GrammarNode :=
  .mk "string" 0 3 0 0 [.mk "string_content" 1 2 0 1 []]

/-- The content of the literal ends every annotation of it. -/
theorem literal_not_annotated :
    let source := ['"', '(', '"']
    (∀ g ∈ GrammarNode.literal.nodes, g.Consistent source) ∧
    (∀ g ∈ GrammarNode.literal.nodes, Node.knownFields? g.kind = none) ∧
    ∃ n, Node.ofGrammar source .literal = .ok n ∧
      ∀ window, annotate source window n = .error (.bracket (.unmatched .round 0)) := by
  intro source
  have hnodes : GrammarNode.literal.nodes = [.literal, .mk "string_content" 1 2 0 1 []] := by
    simp only [GrammarNode.literal, GrammarNode.nodes, GrammarNode.nodesAll, List.append_nil]
  have hconsistent : ∀ g ∈ GrammarNode.literal.nodes, g.Consistent source := by
    rw [hnodes]
    decide
  have hkinds : ∀ g ∈ GrammarNode.literal.nodes, Node.knownFields? g.kind = none := by
    rw [hnodes]
    decide
  obtain ⟨n, hn⟩ := GrammarNode.convertsTo_of_consistent hconsistent
  refine ⟨hconsistent, hkinds, n, hn, fun window => ?_⟩
  obtain ⟨hnone, hbracket⟩ := firstFault?_of_grammar window hconsistent hkinds hn
  have hopen : (GrammarNode.mk "string_content" 1 2 0 1 []).text source = ['('] := by decide
  rw [annotate_error_iff]
  cases hfirst : (Locator.ofSource source window).firstFault? n with
  | none =>
    refine absurd ⟨[], hopen, fun p hp => ?_⟩ (hnone.1 hfirst _ (by rw [hnodes]; simp))
    rw [List.prefix_nil.1 hp]
    decide
  | some fault => rw [hbracket fault hfirst]

end

end SyntaxSpans
