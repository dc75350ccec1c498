import SyntaxSpans.Proofs.Bounds
import SyntaxSpans.Proofs.Outcome
import SyntaxSpans.Report.Overview

/-!
# Which trees have a table

A table has a row for every node that the walk visits. A row needs the line on which the node's span
starts, so the span has to start inside the source or at its end; then the search for a counterpart
ends, or fails in the one way that the table has a word for. It shows the kind of the node as
markup, so no tag in it may close one that is not open. Nothing else keeps a tree from having a table
(`renders_iff`). The annotation promises neither (`annotated_renders_iff`).
-/

namespace SyntaxSpans

namespace Markup

/-! ## Markup that can be shown -/

/-- No tag of the markup closes one that is not open. -/
def Legible (t : Text) : Prop := (shown? t).isSome = true

instance (t : Text) : Decidable (Legible t) := inferInstanceAs (Decidable (_ = _))

def tags (pieces : List Piece) : List Text :=
  pieces.filterMap fun
    | .plain _ => none
    | .tag t => some t

@[simp] theorem tags_nil : tags [] = [] := rfl

@[simp] theorem tags_plain (t : Text) (rest : List Piece) :
    tags (.plain t :: rest) = tags rest := rfl

@[simp] theorem tags_tag (t : Text) (rest : List Piece) :
    tags (.tag t :: rest) = t :: tags rest := rfl

@[simp] theorem tags_append (ps qs : List Piece) : tags (ps ++ qs) = tags ps ++ tags qs :=
  List.filterMap_append

@[simp] theorem tags_plainPiece (t : Text) : tags (plainPiece t) = [] := by
  rw [plainPiece]
  split <;> rfl

/-- The tags that are open behind one more. -/
def opened? (openTags : List OpenTag) (tag : Text) : Option (List OpenTag) :=
  ((Shown.mk openTags []).tag? tag).map (·.openTags)

theorem openTags_tag? (s : Shown) (tag : Text) :
    (s.tag? tag).map (·.openTags) = opened? s.openTags tag := by
  unfold opened? Shown.tag?
  simp only [Option.pure_def, Option.bind_eq_bind]
  split
  · simp only [Option.map_bind, Function.comp_def, Option.map_some]
  · rfl

theorem openTags_foldlM (s : Shown) (ps : List Piece) :
    (ps.foldlM Shown.next? s).map (·.openTags) = (tags ps).foldlM opened? s.openTags := by
  induction ps generalizing s with
  | nil => rfl
  | cons p rest ih =>
    cases p with
    | plain t => exact ih _
    | tag t =>
      rw [List.foldlM_cons, Shown.next?, tags_tag, List.foldlM_cons, ← openTags_tag?]
      cases s.tag? t with
      | none => rfl
      | some s' => exact ih s'

theorem tags_piecesFrom (read read' : Text) (k : Nat) (t : Text) :
    tags (piecesFrom read k t) = tags (piecesFrom read' k t) := by
  fun_induction piecesFrom read k t generalizing read' with
  | case1 read k => rw [piecesFrom, tags_plainPiece, tags_plainPiece]
  | case2 read k rest ih =>
    rw [ih read', piecesFrom.eq_def _ k]
    simp only [if_true]
  | case3 read k c rest hc htag tag ih =>
    rw [piecesFrom.eq_def _ k (c :: rest)]
    simp only [hc, htag, if_true, if_false, tags_append, tags_plainPiece]
    rfl
  | case4 read k c rest hc htag ih =>
    rw [piecesFrom.eq_def _ k (c :: rest)]
    simp only [hc, htag]
    exact ih _

theorem tags_blanks (read : Text) (n : Nat) (t : Text) :
    tags (piecesFrom read 0 (Text.blanks n ++ t)) = tags (piecesFrom [] 0 t) := by
  induction n generalizing read with
  | zero => exact tags_piecesFrom read [] 0 t
  | succ n ih =>
    rw [Text.blanks, List.replicate_succ, List.cons_append, piecesFrom, if_neg (by decide),
      if_neg (by simp)]
    exact ih _

theorem legible_iff {t : Text} :
    Legible t ↔ ((tags (pieces t)).foldlM opened? []).isSome = true := by
  rw [← openTags_foldlM {} (pieces t), Legible, shown?, Option.isSome_map, Option.isSome_map]

/-- Blanks in front of markup do not matter to whether it can be shown. -/
theorem legible_blanks (n : Nat) {t : Text} : Legible (Text.blanks n ++ t) ↔ Legible t := by
  rw [legible_iff, legible_iff, pieces, tags_blanks, pieces]

end Markup

/-- **Whether parentheses stand around a span** that does not start behind the source is known, or
the opening one has no counterpart. -/
theorem Bracket.surrounds_cases {source : Text} {span : Option Span}
    (h : ∀ s, span = some s → s.start ≤ source.length) :
    (∃ b, surrounds "(" span source = .ok b) ∨
    ∃ start, surrounds "(" span source = .error (.unmatched .round start) := by
  cases span with
  | none => exact Or.inl ⟨false, rfl⟩
  | some s =>
    have hs := h s rfl
    simp only [surrounds]
    split
    · exact Or.inl ⟨false, rfl⟩
    · next hbefore =>
      have hlt : (s.start - 1).toNat < source.length := by omega
      rw [at?, if_pos (by omega), List.getElem?_eq_getElem hlt]
      simp only
      split
      · have hfind : find "(" source (s.start - 1) = Bracket.round.counterpart source (s.start - 1) :=
          rfl
        rw [hfind, counterpart, scanned?, if_pos (by omega)]
        simp only
        split
        · exact Or.inl ⟨_, rfl⟩
        · exact Or.inr ⟨_, rfl⟩
      · exact Or.inl ⟨false, rfl⟩

namespace Overview

/-! ## What a row needs -/

section
variable {source : Text} {c : Cursor}

/-- The span, if there is one, starts inside the source or at its end. -/
def Starts (source : Text) (p : Placement) : Prop :=
  ∀ s, p.span = some s → 0 ≤ s.start ∧ s.start ≤ source.length

theorem span_ok_iff {p : Placement} :
    (∃ cells, span (.ofText source) p.span = .ok cells) ↔ Starts source p := by
  cases hspan : p.span with
  | none => simp [span, Starts, hspan]
  | some s =>
    have hsize : (LineMap.ofText source).size = source.length := rfl
    simp only [span, LineMap.location?, hsize, Starts, hspan, Option.some.injEq, forall_eq']
    split <;> simp_all

theorem parentheses_ok {p : Placement} (h : Starts source p) :
    ∃ t, parentheses source p.span = .ok t := by
  rw [parentheses]
  rcases Bracket.surrounds_cases fun s hs => (h s hs).2 with ⟨b, hb⟩ | ⟨start, hstart⟩
  · rw [hb]
    cases b <;> exact ⟨_, rfl⟩
  · rw [hstart]
    exact ⟨_, rfl⟩

/-- **A row** shows two pieces of markup, the kind of the node and that of its parent. -/
theorem row_ok_iff {contents : List Content} : row source (.ofText source) c = .ok contents ↔
    ∃ cells parens, span (.ofText source) c.node.placement.span = .ok cells ∧
      parentheses source c.node.placement.span = .ok parens ∧
      contents = [.markup (Text.blanks (2 * c.path.length) ++ c.kind.toList), .text cells.1,
        .text cells.2,
        .text (match c.node.placement.line with
          | some line => pair (toString line) ":" (optionalNumber c.node.placement.column)
          | none => ['-']),
        .markup (c.parentKind.getD "-").toList, .text parens,
        .text (preview c.node.placement.raw)] := by
  simp only [row, bind_ok_iff]
  constructor
  · rintro ⟨⟨range, start⟩, hcells, parens, hparens, hrow⟩
    exact ⟨(range, start), parens, hcells, hparens, (Except.ok.inj hrow).symm⟩
  · rintro ⟨⟨range, start⟩, parens, hcells, hparens, rfl⟩
    exact ⟨(range, start), hcells, parens, hparens, rfl⟩

theorem exists_row_iff :
    (∃ contents, row source (.ofText source) c = .ok contents) ↔ Starts source c.node.placement := by
  constructor
  · rintro ⟨contents, hrow⟩
    obtain ⟨cells, parens, hcells, -⟩ := row_ok_iff.1 hrow
    exact span_ok_iff.1 ⟨cells, hcells⟩
  · intro hstarts
    obtain ⟨cells, hcells⟩ := span_ok_iff.2 hstarts
    obtain ⟨parens, hparens⟩ := parentheses_ok hstarts
    exact ⟨_, row_ok_iff.2 ⟨cells, parens, hcells, hparens, rfl⟩⟩

theorem shown_text (t : Text) : ∃ cell, (Content.text t).shown = .ok cell := ⟨_, rfl⟩

theorem shown_markup_iff {t : Text} :
    (∃ cell, (Content.markup t).shown = .ok cell) ↔ Markup.Legible t := by
  rw [Content.shown, Markup.Legible]
  cases Markup.shown? t <;> simp

theorem shown_row_iff {contents : List Content} (h : row source (.ofText source) c = .ok contents) :
    (∃ cells, contents.mapM Content.shown = .ok cells) ↔
      Markup.Legible c.kind.toList ∧ Markup.Legible (c.parentKind.getD "-").toList := by
  obtain ⟨cells, parens, -, -, rfl⟩ := row_ok_iff.1 h
  simp only [exists_mapM_iff, List.forall_mem_cons, shown_text, shown_markup_iff,
    Markup.legible_blanks, List.not_mem_nil, false_imp_iff, implies_true, true_and, and_true]

end

/-! ## The table of a tree -/

section
variable {source : Text} {tree : Node}

theorem parentKind_of_mem_preorder :
    ∀ c ∈ (Cursor.root tree).preorder, c.parentKind = none ∨
      ∃ p ∈ (Cursor.root tree).preorder, c.parentKind = some p.kind := by
  refine Cursor.preorder_induction (Or.inl rfl) fun c hc _ d hd => Or.inr ⟨c, hc, ?_⟩
  obtain ⟨name, -, hin⟩ := List.mem_flatMap.1 hd
  obtain ⟨v, -, p, -, rfl⟩ := Cursor.mem_nodesIn.1 hin
  rfl

/-- **Which trees have a table**: those whose spans all start inside the source or at its end, and
whose kinds can all be shown. -/
theorem renders_iff : (∃ t, render source tree = .ok t) ↔
    ∀ c ∈ (Cursor.root tree).preorder,
      Starts source c.node.placement ∧ Markup.Legible c.kind.toList := by
  have hparents : (∀ c ∈ (Cursor.root tree).preorder, Markup.Legible c.kind.toList) →
      ∀ c ∈ (Cursor.root tree).preorder, Markup.Legible (c.parentKind.getD "-").toList := by
    intro hkinds c hc
    rcases parentKind_of_mem_preorder c hc with hnone | ⟨p, hp, hparent⟩
    · rw [hnone, Markup.Legible]
      decide +kernel
    · rw [hparent]
      exact hkinds p hp
  simp only [render, bind_ok_iff]
  constructor
  · rintro ⟨t, rows, hrows, cells, hcells, -⟩ c hc
    obtain ⟨contents, hrow⟩ := exists_mapM_iff.1 ⟨rows, hrows⟩ c hc
    have hshown := exists_mapM_iff.1 ⟨cells, hcells⟩ contents ((mem_mapM_iff hrows).2 ⟨c, hc, hrow⟩)
    exact ⟨exists_row_iff.1 ⟨contents, hrow⟩, ((shown_row_iff hrow).1 hshown).1⟩
  · intro hall
    obtain ⟨rows, hrows⟩ := exists_mapM_iff.2 fun c hc => exists_row_iff.2 (hall c hc).1
    have hcells : ∃ cells, (rows.mapM fun row => row.mapM Content.shown) = .ok cells := by
      refine exists_mapM_iff.2 fun contents hcontents => ?_
      obtain ⟨c, hc, hrow⟩ := (mem_mapM_iff hrows).1 hcontents
      exact (shown_row_iff hrow).2 ⟨(hall c hc).2, hparents (fun d hd => (hall d hd).2) c hc⟩
    obtain ⟨cells, hcells⟩ := hcells
    exact ⟨_, rows, hrows, cells, hcells, rfl⟩

end

end Overview

/-! ## The tables of annotated trees -/

section
variable {source : Text} {window : Window} {tree : Node} {a : Annotated} {c : Cursor} {q : Placement}
  {s : Span}

open Overview (Starts)

/-- **A span that starts elsewhere** is one that overruns the source, or the reported one of a node
that was left alone: the condition of a loop without text, or a `step` that does not read its text. -/
theorem start_elsewhere (h : annotate source window tree = .ok a)
    (hc : c ∈ (Cursor.root tree).preorder)
    (hs : (a.annotation.progress.mark c).placement.span = some s)
    (hout : ¬ (0 ≤ s.start ∧ s.start ≤ source.length)) :
    (Locator.ofSource source window).Overruns c (a.annotation.progress.mark c).placement ∨
    (c.isLoopGuard = true ∧ c.node.placement.raw = none ∧ c.node.placement.span = some s) ∨
    (c.isIn "step" = true ∧
      (a.annotation.progress.mark c).placement.raw ≠ some (s.read source)) := by
  rcases settles_of_final? (final?_mark h hc) with ⟨hbare, hq⟩ | ⟨given, raw, hgiven, hraw, hsettles⟩
  · rw [hq] at hs
    obtain ⟨hraw, himplicit | hguard⟩ := Cursor.rule_bare.1 hbare
    · simp [Cursor.isImplicit, hs] at himplicit
    · exact Or.inr (Or.inl ⟨hguard, hraw, hs⟩)
  · by_cases hread : s.read source = raw
    · refine Or.inl ⟨given, raw, s, hgiven, hraw, hs, ?_⟩
      by_contra hover
      obtain ⟨⟨h0, hle, hend⟩, -⟩ := (hsettles.fits_iff hs hread).2 hover
      exact hout ⟨h0, Int.le_trans hle hend⟩
    · refine Or.inr (Or.inr ⟨?_, fun h => hread ?_⟩)
      -- what rests without standing where its span says is a `step`
      · cases hsettles.atRest with
        | skipped hspan => rw [hs] at hspan; cases hspan
        | exact hreads =>
          obtain ⟨s', hs', hread'⟩ := Locator.span_of_reads hreads
          rw [hs, Option.some.injEq] at hs'
          subst hs'
          exact absurd hread' hread
        | step hstep => exact hstep
      · rw [hraw, Option.some.injEq] at h
        exact h.symm

/-- A node that ends up with a span that starts elsewhere keeps a tree from having a table. -/
theorem not_renders_of_final? (h : annotate source window tree = .ok a)
    (hc : c ∈ (Cursor.root tree).preorder) (hq : (Locator.ofSource source window).final? c = some q)
    (hout : ¬ Starts source q) (t : Text) : Overview.render source a.tree ≠ .ok t := by
  intro ht
  have hmem : a.annotation.progress.placed c ∈ a.nodes := by
    rw [nodes_eq h]
    exact List.mem_map_of_mem hc
  have hstarts := (Overview.renders_iff.1 ⟨t, ht⟩ _ hmem).1
  rw [Progress.placement_placed] at hstarts
  rw [final?_mark h hc, Option.some.injEq] at hq
  rw [hq] at hstarts
  exact hout hstarts

/-- **When an annotated tree has a table**: all its spans start inside the source or at its end, and
all its kinds can be shown. A span that starts elsewhere overruns the source, or was left alone. -/
theorem annotated_renders_iff (h : annotate source window tree = .ok a) :
    ((∃ t, Overview.render source a.tree = .ok t) ↔
      ∀ c ∈ a.nodes, Starts source c.node.placement ∧ Markup.Legible c.kind.toList) ∧
    ∀ c ∈ (Cursor.root tree).preorder, ∀ s, (a.annotation.progress.mark c).placement.span = some s →
      ¬ (0 ≤ s.start ∧ s.start ≤ source.length) →
      (Locator.ofSource source window).Overruns c (a.annotation.progress.mark c).placement ∨
      (c.isLoopGuard = true ∧ c.node.placement.raw = none ∧ c.node.placement.span = some s) ∨
      (c.isIn "step" = true ∧
        (a.annotation.progress.mark c).placement.raw ≠ some (s.read source)) :=
  ⟨Overview.renders_iff, fun _ hc _ hs hout => start_elsewhere h hc hs hout⟩

/-- A name has a table. -/
theorem annotated_renders_name : ∃ a t,
    annotate ['a'] .standard (.identifier 'a' 1) = .ok a ∧ Overview.render ['a'] a.tree = .ok t := by
  have hfinal : (Locator.ofSource ['a'] .standard).final? (.root (.identifier 'a' 1)) =
      some { raw := some ['a'], span := some ⟨0, 1⟩, line := some 1, column := some 1 } := by decide +kernel
  obtain ⟨a, -, ha, -⟩ := annotate_leaf ['a'] .standard (.identifier 'a' 1) rfl rfl hfinal
  obtain ⟨t, ht⟩ := (annotated_renders_iff ha).1.2 fun d hd => by
    rw [nodes_eq ha, Cursor.preorder_leaf rfl, List.map_singleton, List.mem_singleton] at hd
    subst hd
    rw [Progress.placement_placed, Progress.kind_placed]
    rw [final?_mark ha (by simp), Option.some.injEq] at hfinal
    rw [hfinal, Markup.Legible]
    refine ⟨fun s hs => ?_, by decide +kernel⟩
    cases hs
    decide
  exact ⟨a, t, ha, ht⟩

/-- A loop over a range with a `step` that is reported far behind the end of the source. -/
def Node.staleStep : Node :=
  .mk "ForIn" { raw := some ['a'], line := some 1, column := some 1 }
    [("step", .node (.mk "Int" { raw := some ['1'], span := some ⟨7, 8⟩ } []))]

def Node.closing : Node := .mk "[/b]" { raw := some ['a'], line := some 1, column := some 1 } []

/-- The tree is annotated and has no table. -/
def Unshown (source : Text) (tree : Node) : Prop :=
  ∃ a, annotate source .standard tree = .ok a ∧ ∀ t, Overview.render source a.tree ≠ .ok t

/-- These have no table, and neither has an empty name behind the end. -/
theorem not_annotated_renders :
    Unshown ['a'] .staleStep ∧ Unshown ['a'] .behindEnd ∧ Unshown ['a'] .closing := by
  have hstarts : ∀ {s : Span}, 1 < s.start → ∀ {q : Placement}, q.span = some s →
      ¬ Starts ['a'] q := fun hout _ hs h => absurd (h _ hs).2 (Int.not_le.2 hout)
  refine ⟨?_, ?_, ?_⟩
  · have hpre := Cursor.preorder_of_leaves (c := .root .staleStep) (by decide)
    have hok : ∃ a, annotate ['a'] .standard .staleStep = .ok a := by
      rw [annotate_ok_iff, hpre]
      simp only [List.forall_mem_cons, show (Cursor.root .staleStep).children = [_] from rfl]
      refine ⟨⟨?_, rfl⟩, ⟨?_, rfl⟩, by simp⟩ <;> decide +kernel
    obtain ⟨a, ha⟩ := hok
    let step := (Cursor.root .staleStep).down ⟨"step", []⟩
      (.mk "Int" { raw := some ['1'], span := some ⟨7, 8⟩ } [])
    have hmem : step ∈ (Cursor.root .staleStep).preorder := by
      rw [hpre]
      exact List.mem_cons_of_mem _ List.mem_cons_self
    have hfinal : (Locator.ofSource ['a'] .standard).final? step =
        some { raw := some ['1'], span := some ⟨7, 8⟩ } := by decide +kernel
    exact ⟨a, ha, not_renders_of_final? ha hmem hfinal (hstarts (by decide) rfl)⟩
  · have hfinal : (Locator.ofSource ['a'] .standard).final? (.root .behindEnd) =
        some { raw := some [], span := some ⟨3, 3⟩, line := some 1, column := some 4 } := by decide +kernel
    obtain ⟨a, -, ha, -⟩ := annotate_leaf ['a'] .standard .behindEnd rfl rfl hfinal
    exact ⟨a, ha, not_renders_of_final? ha (Cursor.mem_preorder_self _) hfinal
      (hstarts (by decide) rfl)⟩
  · have hfinal : (Locator.ofSource ['a'] .standard).final? (.root .closing) =
        some { raw := some ['a'], span := some ⟨0, 1⟩, line := some 1, column := some 1 } := by decide +kernel
    obtain ⟨a, -, ha, -⟩ := annotate_leaf ['a'] .standard .closing rfl rfl hfinal
    refine ⟨a, ha, fun t ht => ?_⟩
    have hlegible := (Overview.renders_iff.1 ⟨t, ht⟩ _ (Cursor.mem_preorder_self _)).2
    have hkind : (Cursor.root a.tree).kind = "[/b]" := by
      rw [(annotate_ok.1 ha).2, Progress.root_place, Progress.kind_placed]
      rfl
    have hclosed : Markup.shown? "[/b]".toList = none := by decide +kernel
    rw [hkind, Markup.Legible, hclosed] at hlegible
    cases hlegible

end

end SyntaxSpans
