import SyntaxSpans.Parser.Grammar
import SyntaxSpans.Proofs.Descent
import SyntaxSpans.Proofs.Encoding
import SyntaxSpans.Proofs.Lines
import SyntaxSpans.Proofs.Outcome
import SyntaxSpans.Proofs.Stripping

/-!
# Positions of a grammar

A grammar speaks of bytes, rows and byte columns, the annotation of characters, lines and columns. Where
a grammar's positions are consistent with the encoded source, both speak of the same places
(`placement_of_consistent`), so every node of a converted tree is reported where its text stands
(`ofGrammar_exact`).
-/

namespace SyntaxSpans

open Utf8

namespace GrammarNode

def kind : GrammarNode → String
  | .mk kind _ _ _ _ _ => kind

/-- The offset of the first byte. -/
def start : GrammarNode → Int
  | .mk _ start _ _ _ _ => start

/-- The offset behind the last byte. -/
def stop : GrammarNode → Int
  | .mk _ _ stop _ _ _ => stop

/-- The row of the first byte. -/
def row : GrammarNode → Int
  | .mk _ _ _ row _ _ => row

/-- The column of the first byte, in bytes. -/
def column : GrammarNode → Int
  | .mk _ _ _ _ column _ => column

def children : GrammarNode → List GrammarNode
  | .mk _ _ _ _ _ children => children

mutual

/-- The node and all below it, parents first. -/
def nodes : GrammarNode → List GrammarNode
  | .mk kind start stop row column children =>
    .mk kind start stop row column children :: nodesAll children

def nodesAll : List GrammarNode → List GrammarNode
  | [] => []
  | g :: rest => g.nodes ++ nodesAll rest

end

/-- The positions are those of the bytes of a source: both ends are at character boundaries, the row
counts the line feeds in front of the node, and the byte column begins behind the last of them. -/
structure Consistent (source : Text) (g : GrammarNode) : Prop where
  ordered : g.start ≤ g.stop
  starts : IsBoundary (encode source) g.start
  stops : IsBoundary (encode source) g.stop
  row : g.row = feedsBefore (encode source) g.start
  column : g.column = g.start - lineStart (encode source) g.start

def firstChar (source : Text) (g : GrammarNode) : Nat := charsBefore (encode source) g.start

def lastChar (source : Text) (g : GrammarNode) : Nat := charsBefore (encode source) g.stop

instance (source : Text) (g : GrammarNode) : Decidable (g.Consistent source) :=
  decidable_of_iff (g.start ≤ g.stop ∧ IsBoundary (encode source) g.start ∧
      IsBoundary (encode source) g.stop ∧ g.row = feedsBefore (encode source) g.start ∧
      g.column = g.start - lineStart (encode source) g.start)
    ⟨fun ⟨h1, h2, h3, h4, h5⟩ => ⟨h1, h2, h3, h4, h5⟩, fun ⟨h1, h2, h3, h4, h5⟩ => ⟨h1, h2, h3, h4, h5⟩⟩

end GrammarNode

/-! ## One node -/

section
variable {source : Text} {g : GrammarNode}

theorem slice_split {α : Type} (before mid after : List α) :
    slice (before ++ mid ++ after) before.length (before ++ mid).length = mid := by
  rw [slice_natCast _ (by simp) (by simp), List.take_left, List.drop_left]

/-- **The bytes between two places** of a text are those of the text between them. -/
theorem decode_slice (before mid after : Text) :
    decode (slice (encode (before ++ mid ++ after)) (encode before).length
      (encode (before ++ mid)).length) = .ok mid := by
  rw [encode_append, encode_append, slice_split, decode_encode]

/-- A node that is consistent with a source splits it into what is in front of the node, its text and
what is behind. -/
theorem GrammarNode.Consistent.split (h : g.Consistent source) : ∃ before mid after,
    source = before ++ mid ++ after ∧ g.start = (encode before).length ∧
      g.stop = (encode (before ++ mid)).length ∧ g.firstChar source = before.length ∧
      g.lastChar source = (before ++ mid).length := by
  obtain ⟨before, rest, hsource, hstart⟩ := split_of_isBoundary h.starts
  obtain ⟨whole, after, hsource', hstop⟩ := split_of_isBoundary h.stops
  have hfirst : g.firstChar source = before.length := by
    rw [GrammarNode.firstChar, hstart, hsource, charsBefore_split]
  have hlast : g.lastChar source = whole.length := by
    rw [GrammarNode.lastChar, hstop, hsource', charsBefore_split]
  have hordered := h.ordered
  rcases List.append_eq_append_iff.1 (hsource.symm.trans hsource') with
    ⟨mid, rfl, -⟩ | ⟨mid, rfl, rfl⟩
  · exact ⟨before, mid, after, hsource', hstart, hstop, hfirst, hlast⟩
  · -- the end is not in front of the start, so nothing is between them
    have hmid : mid = [] := by
      rw [encode_append, List.length_append] at hstart
      have hlen : (encode mid).length = 0 := by omega
      have hcount := countP_encode mid
      rw [List.length_eq_zero_iff.1 hlen] at hcount
      exact List.length_eq_zero_iff.1 hcount.symm
    subst hmid
    rw [List.append_nil] at hstart hsource hfirst
    refine ⟨whole, [], rest, ?_, hstart, ?_, hfirst, ?_⟩ <;> rwa [List.append_nil]

/-- Where the annotation sees a node of the grammar: its text stands at the line and the column that it
is given, which lead to as many characters as there are in front of its bytes. -/
theorem placement_of_consistent (h : g.Consistent source) :
    ∃ p raw, GrammarNode.placement (encode source) g.start g.stop g.row g.column = .ok p ∧
      raw = slice source (g.firstChar source) (g.lastChar source) ∧
      g.lastChar source = g.firstChar source + raw.length ∧
      p.Reports source raw (g.firstChar source) := by
  obtain ⟨before, mid, after, rfl, hstart, hstop, hfirst, hlast⟩ := h.split
  have hassoc : before ++ mid ++ after = before ++ (mid ++ after) := List.append_assoc _ _ _
  have hrow : g.row = (before.count '\n' : Nat) := by
    rw [h.row, hstart, hassoc, feedsBefore_split]
  -- what is in front of the node on its line
  obtain ⟨keep, hkeep⟩ : ∃ keep, keep = before.rdropWhile (· != '\n') := ⟨_, rfl⟩
  obtain ⟨tail, htail⟩ : keep <+: before := hkeep ▸ List.rdropWhile_prefix _ _
  have hcolumn : g.start - g.column = (encode keep).length := by
    rw [h.column, hstart, hassoc, lineStart_split, ← hkeep]
    omega
  have hline : decode (slice (encode (before ++ mid ++ after)) (g.start - g.column) g.start) =
      .ok tail := by
    rw [hcolumn, hstart, hassoc, ← htail]
    exact decode_slice keep tail (mid ++ after)
  have htext : decode (slice (encode (before ++ mid ++ after)) g.start g.stop) = .ok mid := by
    rw [hstart, hstop]
    exact decode_slice before mid after
  refine ⟨{ raw := some mid, line := some (g.row + 1), column := some (tail.length + 1) }, mid, ?_, ?_,
    ?_, rfl, rfl, ⟨_, _, rfl, rfl, ?_⟩, ?_⟩
  · rw [GrammarNode.placement, hline, htext]
    rfl
  · rw [hfirst, hlast, slice_split]
  · rw [hfirst, hlast, List.length_append]
  · have hwidth : (tail.length : Int) = before.length - keep.length := by
      rw [← htail, List.length_append]
      omega
    rw [hrow, hfirst, hassoc, Int.add_sub_cancel, Int.add_sub_cancel, hwidth, hkeep]
    exact LineMap.offset?_split before (mid ++ after)
  · rw [hfirst, Text.StandsAt, hassoc, List.drop_left]
    exact List.prefix_append _ _

end

/-! ## Whole trees -/

namespace GrammarNode

section
variable {bytes : Bytes} {g d e : GrammarNode}

theorem mem_nodesAll {gs : List GrammarNode} : d ∈ nodesAll gs ↔ ∃ g ∈ gs, d ∈ g.nodes := by
  induction gs with
  | nil => simp [nodesAll]
  | cons g rest ih => simp only [nodesAll, List.mem_append, ih, List.exists_mem_cons_iff]

theorem mem_nodes : d ∈ g.nodes ↔ d = g ∨ ∃ e ∈ g.children, d ∈ e.nodes := by
  cases g
  rw [nodes, List.mem_cons, mem_nodesAll]
  rfl

theorem mem_nodes_self (g : GrammarNode) : g ∈ g.nodes := mem_nodes.2 (Or.inl rfl)

theorem sizeOf_lt_of_mem_children (h : e ∈ g.children) : sizeOf e < sizeOf g := by
  cases g
  have := List.sizeOf_lt_of_mem h
  simp only [children, mk.sizeOf_spec] at this ⊢
  omega

theorem mem_nodes_of_mem_children {g : GrammarNode} (hd : d ∈ g.nodes) (he : e ∈ d.children) :
    e ∈ g.nodes := by
  rcases mem_nodes.1 hd with rfl | ⟨child, hchild, hd⟩
  · exact mem_nodes.2 (Or.inr ⟨e, he, mem_nodes_self e⟩)
  · have := sizeOf_lt_of_mem_children hchild
    exact mem_nodes.2 (Or.inr ⟨child, hchild, mem_nodes_of_mem_children hd he⟩)
termination_by sizeOf g

/-- The node converts to a node of the annotation. -/
def ConvertsTo (bytes : Bytes) (g : GrammarNode) (n : Node) : Prop := g.convert bytes = .ok n

theorem convertAll_ok_iff {gs : List GrammarNode} {items : List Value} :
    convertAll bytes gs = .ok items ↔
      ∃ ns, List.Forall₂ (ConvertsTo bytes) gs ns ∧ items = ns.map .node := by
  induction gs generalizing items with
  | nil =>
    simp only [convertAll, Except.ok.injEq, List.forall₂_nil_left_iff, exists_eq_left, List.map_nil]
    exact eq_comm
  | cons g rest ih =>
    simp only [convertAll, bind_ok_iff, ih, List.forall₂_cons_left_iff]
    constructor
    · rintro ⟨n, hn, values, ⟨ns, hns, rfl⟩, hitems⟩
      exact ⟨n :: ns, ⟨n, ns, hn, hns, rfl⟩, (Except.ok.inj hitems).symm⟩
    · rintro ⟨-, ⟨n, ns, hn, hns, rfl⟩, rfl⟩
      exact ⟨n, hn, ns.map .node, ⟨ns, hns, rfl⟩, rfl⟩

/-- **The conversion of a tree** converts the place of the node, and the children in their order. -/
theorem convertsTo_iff {n : Node} : g.ConvertsTo bytes n ↔ ∃ p ns,
    placement bytes g.start g.stop g.row g.column = .ok p ∧
      List.Forall₂ (ConvertsTo bytes) g.children ns ∧
      n = .mk g.kind p [("children", .list (ns.map .node))] := by
  obtain ⟨kind, start, stop, row, column, children⟩ := g
  simp only [ConvertsTo, convert, bind_ok_iff, convertAll_ok_iff]
  constructor
  · rintro ⟨p, hp, items, ⟨ns, hns, rfl⟩, hn⟩
    exact ⟨p, ns, hp, hns, (Except.ok.inj hn).symm⟩
  · rintro ⟨p, ns, hp, hns, rfl⟩
    exact ⟨p, hp, ns.map .node, ⟨ns, hns, rfl⟩, rfl⟩

theorem nodesFrom_map_node (ns : List Node) (index : List Nat) (i : Nat) :
    (Value.nodesFrom index i (ns.map .node)).map (·.2) = ns := by
  induction ns generalizing i with
  | nil => rfl
  | cons n rest ih =>
    rw [List.map_cons, Value.nodesFrom, Value.nodesAt, List.singleton_append, List.map_cons, ih]

section
variable {c : Cursor}

/-- The children of a converted node are the conversions of its children, in their order. -/
theorem ConvertsTo.nodesIn (h : g.ConvertsTo bytes c.node) :
    List.Forall₂ (fun e d => e.ConvertsTo bytes d.node) g.children (c.nodesIn "children") := by
  obtain ⟨p, ns, -, hns, hn⟩ := convertsTo_iff.1 h
  have hfield : c.node.field? "children" = some (.list (ns.map .node)) := by
    rw [hn]
    rfl
  have hnodes : (c.nodesIn "children").map (·.node) = ns := by
    rw [Cursor.nodesIn, hfield, List.map_map, Value.nodesAt]
    exact nodesFrom_map_node ns [] 0
  rwa [← hnodes, List.forall₂_map_right_iff] at hns

theorem ConvertsTo.field (h : g.ConvertsTo bytes c.node) {name : String} {d : Cursor}
    (hd : d ∈ c.nodesIn name) : name = "children" := by
  obtain ⟨p, ns, -, -, hn⟩ := convertsTo_iff.1 h
  obtain ⟨v, hv, -⟩ := Cursor.mem_nodesIn.1 hd
  rw [hn] at hv
  by_contra hne
  rw [Node.field?, Node.fields_mk, List.lookup_cons, beq_eq_false_iff_ne.2 hne] at hv
  cases hv

/-- Every node of a converted tree is the conversion of one of the grammar's nodes. -/
theorem ConvertsTo.of_contains {r : Cursor} (h : g.ConvertsTo bytes r.node) (hc : r.Contains c) :
    ∃ d ∈ g.nodes, d.ConvertsTo bytes c.node := by
  induction hc with
  | refl => exact ⟨g, mem_nodes_self g, h⟩
  | down _ he ih =>
    obtain ⟨d, hd, hconvert⟩ := ih
    obtain rfl := hconvert.field he
    obtain ⟨e, hmem, he⟩ := exists_left_of_forall₂ hconvert.nodesIn _ he
    exact ⟨e, mem_nodes_of_mem_children hd hmem, he⟩

end

end

section
variable {source : Text}

theorem convertsTo_of_consistent {g : GrammarNode} (h : ∀ d ∈ g.nodes, d.Consistent source) :
    ∃ n, g.ConvertsTo (encode source) n := by
  obtain ⟨p, -, hp, -⟩ := placement_of_consistent (h g (mem_nodes_self g))
  have hchildren : ∀ e ∈ g.children, ∃ n, e.ConvertsTo (encode source) n := fun e he => by
    have := sizeOf_lt_of_mem_children he
    exact convertsTo_of_consistent fun d hd => h d (mem_nodes.2 (Or.inr ⟨e, he, hd⟩))
  obtain ⟨ns, hns⟩ : ∃ ns, List.Forall₂ (ConvertsTo (encode source)) g.children ns := by
    generalize g.children = gs at hchildren
    induction gs with
    | nil => exact ⟨[], .nil⟩
    | cons e rest ih =>
      obtain ⟨n, hn⟩ := hchildren e List.mem_cons_self
      obtain ⟨ns, hns⟩ := ih fun e he => hchildren e (List.mem_cons_of_mem _ he)
      exact ⟨n :: ns, .cons hn hns⟩
  exact ⟨_, convertsTo_iff.2 ⟨p, ns, hp, hns, rfl⟩⟩
termination_by sizeOf g

end

end GrammarNode

section
variable {source : Text} {tree : GrammarNode}

/-- The place of a node says in characters what the grammar says in bytes: its line and its column lead
behind the characters in front of the first byte, its text is that from there up to the last byte, and
a search finds the text right there. -/
structure GrammarNode.PlacedAs (source : Text) (g : GrammarNode) (p : Placement) : Prop where
  starts : ((encode (source.take (g.firstChar source))).length : Int) = g.start
  stops : ((encode (source.take (g.lastChar source))).length : Int) = g.stop
  position : ∃ line column, p.line = some line ∧ p.column = some column ∧
    (LineMap.ofText source).offset? (line - 1) (column - 1) = some (g.firstChar source : Int)
  text : p.raw = some (slice source (g.firstChar source) (g.lastChar source))
  found : ∀ window, (Locator.ofSource source window).search
    (slice source (g.firstChar source) (g.lastChar source)) p.toAnchor =
      .ok { p.toAnchor with span := some ⟨g.firstChar source, g.lastChar source⟩ }

theorem GrammarNode.ConvertsTo.placedAs {g : GrammarNode} {n : Node} (hg : g.Consistent source)
    (h : g.ConvertsTo (encode source) n) : g.PlacedAs source n.placement := by
  obtain ⟨before, mid, after, hsource, hstart, hstop, hfirst, hlast⟩ := hg.split
  obtain ⟨p, raw, hp, hraw, hlen, hreports⟩ := placement_of_consistent hg
  obtain ⟨p', ns, hp', -, rfl⟩ := GrammarNode.convertsTo_iff.1 h
  obtain rfl : p = p' := Except.ok.inj (hp.symm.trans hp')
  refine ⟨?_, ?_, hreports.position, hraw ▸ hreports.text, fun window => ?_⟩
  · rw [hfirst, hsource, List.append_assoc, List.take_left, hstart]
  · rw [hlast, hsource, List.take_left, hstop]
  · rw [← hraw, hlen]
    exact search_of_reports window hreports

/-- **Positions of a grammar are converted exactly**: a tree that is consistent with the source can be
converted, and every node of the converted tree, at whatever depth, says in characters what one of the
grammar's nodes says in bytes. -/
theorem ofGrammar_exact (h : ∀ g ∈ tree.nodes, g.Consistent source) :
    ∃ n, Node.ofGrammar source tree = .ok n ∧ ∀ c, (Cursor.root n).Contains c →
      ∃ g ∈ tree.nodes, g.ConvertsTo (encode source) c.node ∧ g.PlacedAs source c.node.placement := by
  obtain ⟨n, hn⟩ := GrammarNode.convertsTo_of_consistent h
  refine ⟨n, hn, fun c hc => ?_⟩
  obtain ⟨g, hg, hconvert⟩ := hn.of_contains hc
  exact ⟨g, hg, hconvert, hconvert.placedAs (h g hg)⟩

/-- Two lines, with a name at the end of the second one. -/
def GrammarNode.accented : GrammarNode :=
  .mk "module" 0 7 0 0 [.mk "identifier" 6 7 1 3 []]

/-- The name is the fifth character, although it is the seventh byte. -/
theorem ofGrammar_exact_accented :
    let source := ['é', '\n', 'ü', ' ', 'x']
    (∀ g ∈ GrammarNode.accented.nodes, g.Consistent source) ∧
      ∃ n, Node.ofGrammar source .accented = .ok n ∧ ∀ c, (Cursor.root n).Contains c →
        ∃ g ∈ GrammarNode.accented.nodes, g.ConvertsTo (encode source) c.node ∧
          g.PlacedAs source c.node.placement := by
  intro source
  have hconsistent : ∀ g ∈ GrammarNode.accented.nodes, g.Consistent source := by
    simp only [GrammarNode.accented, GrammarNode.nodes, GrammarNode.nodesAll, List.append_nil,
      List.forall_mem_cons, List.not_mem_nil, false_implies, implies_true, and_true]
    decide
  exact ⟨hconsistent, ofGrammar_exact hconsistent⟩

end

end SyntaxSpans
