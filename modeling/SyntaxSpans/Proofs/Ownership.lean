import Mathlib.Tactic.FinCases
import SyntaxSpans.Proofs.Scoping
import SyntaxSpans.Proofs.Settling
import SyntaxSpans.Tree.Dump

/-!
# Which nodes own the scopes

A scope belongs to the node that opened it, and all nodes below share it up to the next ones that open
scopes of their own. So the scopes around a node are those of the openers that the node stands below, in
the order in which they come on the way up, up to the first top node (`scopes_nested`).
-/

namespace SyntaxSpans

namespace Cursor

/-- A node and those that it stands below, up to the root: each is a child of the next. -/
inductive Line (r : Cursor) : List Cursor → Prop where
  | root : Line r [r]
  | child {c d : Cursor} {above : List Cursor} (h : Line r (c :: above)) (hd : d ∈ c.children) :
      Line r (d :: c :: above)

/-- The nodes up to the first top node. -/
def upToTop : List Cursor → List Cursor
  | [] => []
  | c :: above => if c.isTop then [c] else c :: upToTop above

/-- The openers of a line whose scopes are around its first node. -/
def enclosing (line : List Cursor) : List Cursor := upToTop (line.filter (·.opensScope))

section
variable {r c d : Cursor} {above : List Cursor}

theorem Line.mem_preorder (h : Line r (c :: above)) : c ∈ r.preorder := by
  generalize hline : c :: above = line at h
  induction h generalizing c above with
  | root =>
    obtain ⟨rfl, -⟩ := List.cons.inj hline
    exact mem_preorder_self c
  | child _ hd ih =>
    obtain ⟨rfl, -⟩ := List.cons.inj hline
    exact mem_preorder_trans (ih rfl) (mem_preorder_of_mem_children hd)

/-- Every node of the walk has a line. -/
theorem line_of_mem_preorder (h : c ∈ r.preorder) : ∃ above, Line r (c :: above) :=
  preorder_induction (motive := fun c => ∃ above, Line r (c :: above)) ⟨[], .root⟩
    (fun c _ ⟨above, hc⟩ _ hd => ⟨c :: above, hc.child hd⟩) c h

theorem enclosing_of_top (h : c.isTop = true) : enclosing (c :: above) = [c] := by
  have hopens : c.opensScope = true := by simp [opensScope, h]
  simp [enclosing, hopens, upToTop, h]

theorem enclosing_of_function (htop : c.isTop = false) (h : c.opensScope = true) :
    enclosing (c :: above) = c :: enclosing above := by
  simp [enclosing, h, upToTop, htop]

theorem enclosing_of_shares (h : c.opensScope = false) : enclosing (c :: above) = enclosing above := by
  simp [enclosing, h]

end

end Cursor

/-- The scopes of the nodes below `r` hang together as the nodes that open them do. -/
structure Annotated.ScopesNested (a : Annotated) (r : Cursor) : Prop where
  line : ∀ c ∈ r.preorder, ∃ above, r.Line (c :: above)
  /-- The scope of a node is that of the first opener on its line. -/
  owner : ∀ c above, r.Line (c :: above) → ∃ o, (c :: above).find? (·.opensScope) = some o ∧
    ∃ i, a.scope? c = some i ∧ a.scope? o = some i
  /-- Different openers have different scopes. -/
  apart : ∀ c ∈ r.preorder, ∀ d ∈ r.preorder, c.opensScope = true → d.opensScope = true →
    a.scope? c = a.scope? d → c = d
  /-- The scope of a top node stands alone. -/
  top : ∀ c ∈ r.preorder, c.isTop = true → ∀ i, a.scope? c = some i →
    a.annotation.forest.outer? i = none
  /-- The scope of any other function stands inside that of the function's parent. -/
  function : ∀ c ∈ r.preorder, ∀ d ∈ c.children, d.isFunction = true → ∀ i, a.scope? d = some i →
    a.annotation.forest.outer? i = a.scope? c
  /-- The scope around a scope is older, so that chains follow the scopes around to the end. -/
  older : ∀ i j : Nat, a.annotation.forest.outer? i = some j → j < i
  /-- The chain of a node's scope goes through the scopes of the openers around the node. -/
  chain : ∀ c above, r.Line (c :: above) → ∃ i, a.scope? c = some i ∧
    (a.annotation.forest.chain i).map some = (Cursor.enclosing (c :: above)).map a.scope? ∧
    (a.annotation.forest.chain i).Nodup

namespace Scoping

section
variable {s : Scoping} {r c d : Cursor} {above : List Cursor}

theorem Sound.at?_of_child (h : s.Sound r.preorder) (hc : c ∈ r.preorder) (hd : d ∈ c.children)
    (hshares : d.opensScope = false) : s.at? d.path = s.at? c.path := by
  obtain ⟨slot, hp⟩ := Cursor.path_of_mem_children hd
  rw [h.shared d (Cursor.mem_preorder_trans hc (Cursor.mem_preorder_of_mem_children hd)) hshares, hp]
  rfl

/-- The scope of a child that opens one stands inside that of its parent, unless the child is a top
node. -/
theorem Sound.outer?_of_child (h : s.Sound r.preorder) (hc : c ∈ r.preorder) (hd : d ∈ c.children)
    (hopens : d.opensScope = true) {i : Nat} (hi : s.at? d.path = some i) :
    s.forest.outer? i = if d.isTop then none else s.at? c.path := by
  obtain ⟨slot, hp⟩ := Cursor.path_of_mem_children hd
  rw [h.around d (Cursor.mem_preorder_trans hc (Cursor.mem_preorder_of_mem_children hd)) hopens i hi,
    around?, hp]
  rfl

theorem Sound.outer?_of_top (h : s.Sound r.preorder) (hc : c ∈ r.preorder) (htop : c.isTop = true)
    {i : Nat} (hi : s.at? c.path = some i) : s.forest.outer? i = none := by
  rw [h.around c hc (by simp [Cursor.opensScope, htop]) i hi, around?, if_pos htop]

theorem Sound.owner (h : s.Sound r.preorder) (hroot : r.path = []) (hline : r.Line (c :: above)) :
    ∃ o, (c :: above).find? (·.opensScope) = some o ∧
      ∃ i, s.at? c.path = some i ∧ s.at? o.path = some i := by
  generalize hl : c :: above = line at hline
  induction hline generalizing c above with
  | root =>
    obtain ⟨rfl, rfl⟩ := List.cons.inj hl
    obtain ⟨i, -, hi⟩ := h.inScope c (Cursor.mem_preorder_self c)
    exact ⟨c, by simp [Cursor.opensScope_of_root hroot], i, hi, hi⟩
  | @child p d above' hup hd ih =>
    obtain ⟨rfl, rfl⟩ := List.cons.inj hl
    cases hopens : c.opensScope with
    | true =>
      obtain ⟨i, -, hi⟩ := h.inScope c (hup.child hd).mem_preorder
      exact ⟨c, by simp [hopens], i, hi, hi⟩
    | false =>
      obtain ⟨o, ho, i, hi, hoi⟩ := ih rfl
      refine ⟨o, ?_, i, ?_, hoi⟩
      · rw [List.find?_cons, hopens]
        exact ho
      · rw [h.at?_of_child hup.mem_preorder hd hopens, hi]

theorem Sound.chain (h : s.Sound r.preorder) (hroot : r.path = []) (hline : r.Line (c :: above)) :
    ∃ i, s.at? c.path = some i ∧
      (s.forest.chain i).map some = (Cursor.enclosing (c :: above)).map (s.at? ·.path) := by
  generalize hl : c :: above = line at hline
  have htop : ∀ {d : Cursor} {above : List Cursor}, d ∈ r.preorder → d.isTop = true →
      ∃ i, s.at? d.path = some i ∧
        (s.forest.chain i).map some = (Cursor.enclosing (d :: above)).map (s.at? ·.path) := by
    intro d above hd htop
    obtain ⟨i, -, hi⟩ := h.inScope d hd
    refine ⟨i, hi, ?_⟩
    rw [Cursor.enclosing_of_top htop, Forest.chain_of_top (h.outer?_of_top hd htop hi), List.map_singleton,
      List.map_singleton, hi]
  induction hline generalizing c above with
  | root =>
    obtain ⟨rfl, rfl⟩ := List.cons.inj hl
    exact htop (Cursor.mem_preorder_self c) (Cursor.isTop_of_root hroot)
  | @child p d above' hup hd ih =>
    obtain ⟨rfl, rfl⟩ := List.cons.inj hl
    have hmem := (hup.child hd).mem_preorder
    obtain ⟨j, hj, hchain⟩ := ih rfl
    -- the chain is that of the parent, with a scope in front if the node opens one
    cases hopens : c.opensScope with
    | false =>
      refine ⟨j, ?_, ?_⟩
      · rw [h.at?_of_child hup.mem_preorder hd hopens, hj]
      · rw [Cursor.enclosing_of_shares hopens, hchain]
    | true =>
      cases hc : c.isTop with
      | true => exact htop hmem hc
      | false =>
        obtain ⟨i, -, hi⟩ := h.inScope c hmem
        have houter : s.forest.outer? i = some j := by
          rw [h.outer?_of_child hup.mem_preorder hd hopens hi, hc, if_neg Bool.false_ne_true, hj]
        refine ⟨i, hi, ?_⟩
        rw [Cursor.enclosing_of_function hc hopens, Forest.chain_of_outer houter (h.older i j houter),
          List.map_cons, List.map_cons, hchain, hi]

end

end Scoping

section
variable {source : Text} {window : Window} {tree : Node} {a : Annotated}

theorem sound_of_ok (hregular : tree.Regular) (h : annotate source window tree = .ok a) :
    a.annotation.scoping.Sound (Cursor.root tree).preorder := by
  rw [scoping_of_ok h]
  exact Scoping.sound_of_prefix (r := .root tree) rfl hregular (List.append_nil _).symm

/-- **Nested scopes**: the scopes of an annotated tree hang together as the nodes that open them do. -/
theorem scopes_nested {j : Json} (hj : j.Distinct) (htree : Node.ofJson j = .ok tree)
    (h : annotate source window tree = .ok a) : a.ScopesNested (.root tree) := by
  have hsound := sound_of_ok (regular_of_ofJson hj htree) h
  have hin : ∀ {c : Cursor}, c ∈ (Cursor.root tree).preorder → (Cursor.root tree).Contains c :=
    Cursor.contains_of_mem_preorder
  constructor
  case line => exact fun c hc => Cursor.line_of_mem_preorder hc
  case owner => exact fun c above hline => hsound.owner rfl hline
  case apart =>
    intro c hc d hd hco hdo heq
    exact (hin hc).eq_of_path (hin hd) (hsound.apart c hc d hd hco hdo heq)
  case top => exact fun c hc htop i hi => hsound.outer?_of_top hc htop hi
  case function =>
    intro c hc d hd hfunction i hi
    -- a function that is a child is no top node
    have htop : d.isTop = false := by
      obtain ⟨slot, hp⟩ := Cursor.path_of_mem_children hd
      have hkind : d.kind ≠ "Program" := by
        intro hkind
        simp [Cursor.isFunction, hkind] at hfunction
      simp [Cursor.isTop, hkind, hp]
    refine (hsound.outer?_of_child hc hd (by simp [Cursor.opensScope, hfunction]) hi).trans ?_
    rw [htop, if_neg Bool.false_ne_true]
    rfl
  case older => exact hsound.older
  case chain =>
    intro c above hline
    obtain ⟨i, hi, hchain⟩ := hsound.chain rfl hline
    exact ⟨i, hi, hchain, Forest.chain_nodup _ i⟩

end

/-! ## A function that assigns to its own name -/

/-- A node whose span reads its text stays there, if the text is not in parentheses. -/
theorem Locator.final?_ne_none_of_reads {l : Locator} {c : Cursor} {raw : Text}
    (hraw : c.node.placement.raw = some raw) (hreads : l.reads c.node.placement.span raw = true)
    (hstrip : strip? raw = .ok none) : l.final? c ≠ none := by
  rw [final?_own (Cursor.rule_own.2 hraw), settled?_of_atRest (.exact hreads hstrip)]
  simp

def Node.reported (kind : String) (raw : Text) (start : Int) (fields : List (String × Value)) : Node :=
  .mk kind { raw := some raw, span := some ⟨start, start + raw.length⟩ } fields

def Node.letter (name : Char) (start : Int) : Node :=
  .reported "Identifier" [name] start [("data", .scalar (.str (String.ofList [name])))]

/-- The program `f=(x)->f=x`. -/
def Text.selfAssigning : Text := ['f', '=', '(', 'x', ')', '-', '>', 'f', '=', 'x']

/-- The assignment in the body of the function. -/
def Node.selfAssigningBody : Node :=
  .reported "AssignOp" ['f', '=', 'x'] 7
    [("assignee", .node (.letter 'f' 7)), ("expression", .node (.letter 'x' 9))]

def Node.selfAssigningFunction : Node :=
  .reported "Function" ['(', 'x', ')', '-', '>', 'f', '=', 'x'] 2
    [("parameters", .list [.node (.letter 'x' 3)]), ("body", .node .selfAssigningBody)]

def Node.selfAssignment : Node :=
  .reported "AssignOp" .selfAssigning 0
    [("assignee", .node (.letter 'f' 0)), ("expression", .node .selfAssigningFunction)]

def Node.selfAssigning : Node :=
  .reported "Program" .selfAssigning 0 [("body", .node .selfAssignment)]

namespace SelfAssigning

/-! The nodes of the program, in the order of the walk. -/

def program : Cursor := .root .selfAssigning

def assignment : Cursor := program.down ⟨"body", []⟩ .selfAssignment

def name : Cursor := assignment.down ⟨"assignee", []⟩ (.letter 'f' 0)

def function : Cursor := assignment.down ⟨"expression", []⟩ .selfAssigningFunction

def parameter : Cursor := function.down ⟨"parameters", [0]⟩ (.letter 'x' 3)

def inner : Cursor := function.down ⟨"body", []⟩ .selfAssigningBody

def innerName : Cursor := inner.down ⟨"assignee", []⟩ (.letter 'f' 7)

def innerValue : Cursor := inner.down ⟨"expression", []⟩ (.letter 'x' 9)

theorem children_program : program.children = [assignment] := rfl

theorem children_assignment : assignment.children = [name, function] := rfl

theorem preorder_program : program.preorder =
    [program, assignment, name, function, parameter, inner, innerName, innerValue] := by
  have hfunction : function.children = [parameter, inner] := rfl
  have hinner : inner.children = [innerName, innerValue] := rfl
  have hleaf : ∀ c ∈ [name, parameter, innerName, innerValue], c.preorder = [c] := by
    intro c hc
    refine Cursor.preorder_leaf ?_
    fin_cases hc <;> rfl
  rw [Cursor.preorder_eq program, children_program]
  simp only [List.flatMap_cons, List.flatMap_nil, Cursor.preorder_eq assignment, children_assignment,
    Cursor.preorder_eq function, hfunction, Cursor.preorder_eq inner, hinner]
  simp [hleaf]

theorem introduced_assignment : assignment.introduced = ⟨[name], none⟩ :=
  Cursor.introduced_assign rfl rfl (Cursor.identifiers_of_identifier rfl)

theorem introduced_function : function.introduced = ⟨[parameter], none⟩ :=
  Cursor.introduced_function rfl rfl (Cursor.identifiers_of_identifier rfl)

theorem introduced_inner : inner.introduced = ⟨[innerName], none⟩ :=
  Cursor.introduced_assign rfl rfl (Cursor.identifiers_of_identifier rfl)

theorem distinct_program : (Node.selfAssigning).dump.Distinct := by
  repeat' constructor
  all_goals decide

theorem annotate_program : ∃ a, annotate .selfAssigning .standard .selfAssigning = .ok a := by
  rw [annotate_ok_iff]
  change ∀ c ∈ program.preorder, _
  rw [preorder_program]
  simp only [List.forall_mem_cons, introduced_assignment, introduced_function, introduced_inner]
  refine ⟨⟨?_, rfl⟩, ⟨?_, trivial⟩, ⟨?_, rfl⟩, ⟨?_, trivial⟩, ⟨?_, rfl⟩, ⟨?_, trivial⟩, ⟨?_, rfl⟩, ⟨?_, rfl⟩,
    by simp⟩ <;>
  exact Locator.final?_ne_none_of_reads rfl rfl rfl

end SelfAssigning

section
open SelfAssigning

/-- The function of the program has a scope of its own, inside that of the program, and the assignment in
its body is in that scope. -/
theorem scopes_nested_selfAssigning : Node.ofJson (Node.selfAssigning).dump = .ok .selfAssigning ∧
    ∃ a, annotate .selfAssigning .standard .selfAssigning = .ok a ∧
    ∃ i j, a.scope? program = some i ∧ a.scope? assignment = some i ∧ a.annotation.forest.outer? i = none ∧
      a.scope? function = some j ∧ a.scope? inner = some j ∧ a.annotation.forest.outer? j = some i ∧
      i ≠ j := by
  obtain ⟨a, ha⟩ := annotate_program
  have h : a.ScopesNested program := scopes_nested distinct_program rfl ha
  have hassignment : program.Line [assignment, program] := .child .root (by simp [children_program])
  have hfunction : program.Line [function, assignment, program] :=
    .child hassignment (by simp [children_assignment])
  have hinner : program.Line [inner, function, assignment, program] := .child hfunction (by
    rw [show function.children = [parameter, inner] from rfl]
    simp)
  -- the first opener on each line
  obtain ⟨_, ho, i, hi, hprogram⟩ := h.owner _ _ hassignment
  obtain rfl : program = _ := Option.some.inj ho
  obtain ⟨_, ho, j, hj, hown⟩ := h.owner _ _ hinner
  obtain rfl : function = _ := Option.some.inj ho
  refine ⟨rfl, a, ha, i, j, hprogram, hi, h.top _ (by simp [preorder_program]) rfl i hprogram, hown, hj, ?_, ?_⟩
  · rw [h.function assignment (by simp [preorder_program]) function (by simp [children_assignment]) rfl j hown,
      hi]
  · rintro rfl
    have heq := h.apart program (by simp [preorder_program]) function (by simp [preorder_program]) rfl rfl
      (hprogram.trans hown.symm)
    exact absurd (congrArg (·.path.length) heq) (by decide)

end

end SyntaxSpans
