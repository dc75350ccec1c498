import SyntaxSpans.Proofs.Schedule

/-!
# What a resolution changes

`resolve_outcome` says where a resolution leaves the nodes. This module says all else that it changes:
which nodes it deals with, which links it sets and which records it makes, and in which order. The nodes
are those in `Progress.pending`, a list that depends only on the tree and on what was resolved before, so
the order in which a node's operands are asked for is the same for every resolver that `locateBy` covers.

A chain of operators is dealt with before the operator that it belongs to looks at its left operand
(`Ahead`). This takes nodes from the beginning of the list, in the order in which they stand there, so
the list as a whole stays the same (`Supplies.of_ahead`).
-/

namespace SyntaxSpans

namespace Progress

/-! ## The nodes that are left to do -/

/-- The nodes that are dealt with when a node is resolved, in this order: its operands, each after its
own ones, and then the node. What was resolved before is left out. -/
def pending (p : Progress) (c : Cursor) : List Cursor :=
  if (p.mark c).resolved then []
  else (c.operands.attach.flatMap fun ⟨d, _⟩ => pending p d) ++ [c]
termination_by sizeOf c.node
decreasing_by exact Cursor.sizeOf_operand_lt ‹_›

section
variable {r c d : Cursor} {p p' : Progress}

theorem pending_of_resolved (h : (p.mark c).resolved = true) : p.pending c = [] := by
  rw [pending, if_pos h]

theorem pending_of_unresolved (h : (p.mark c).resolved = false) :
    p.pending c = c.operands.flatMap p.pending ++ [c] := by
  rw [pending, h, if_neg Bool.false_ne_true, List.flatMap_def, List.flatMap_def]
  exact congrArg (fun ds => List.flatten ds ++ [c]) List.attach_map_val

theorem draws_of_mem_pending {c : Cursor} (h : d ∈ p.pending c) : c.Draws d := by
  cases hres : (p.mark c).resolved with
  | true =>
    rw [pending_of_resolved hres] at h
    cases h
  | false =>
    rw [pending_of_unresolved hres, List.mem_append, List.mem_singleton] at h
    rcases h with h | rfl
    · obtain ⟨e, he, h⟩ := List.mem_flatMap.1 h
      have := Cursor.sizeOf_operand_lt he
      exact .head he (draws_of_mem_pending h)
    · exact .refl
termination_by sizeOf c.node

/-- What is left to do depends on which of the nodes drawn on have been resolved. -/
theorem pending_congr {c : Cursor}
    (h : ∀ d, c.Draws d → (p'.mark d).resolved = (p.mark d).resolved) :
    p'.pending c = p.pending c := by
  have hc := h c .refl
  cases hres : (p.mark c).resolved with
  | true => rw [pending_of_resolved hres, pending_of_resolved (hc.trans hres)]
  | false =>
    rw [pending_of_unresolved hres, pending_of_unresolved (hc.trans hres), List.flatMap_def,
      List.flatMap_def]
    have hops : ∀ d ∈ c.operands, p'.pending d = p.pending d := by
      intro d hd
      have := Cursor.sizeOf_operand_lt hd
      exact pending_congr fun e he => h e (.head hd he)
    rw [List.map_congr_left hops]
termination_by sizeOf c.node

theorem mem_pending_self (h : (p.mark c).resolved = false) : c ∈ p.pending c := by
  rw [pending_of_unresolved h]
  simp

end

/-! ## Changes -/

/-- Below `r` the nodes `done` have been resolved, the nodes `linked` have been linked, and the records
have been made; no other node was resolved or linked. -/
structure Changes (r : Cursor) (done linked : List Cursor) (records : List Record)
    (p p' : Progress) : Prop where
  resolved : ∀ d, r.Contains d →
    ((p'.mark d).resolved = true ↔ (p.mark d).resolved = true ∨ d ∈ done)
  linked : ∀ d, r.Contains d →
    ((p'.mark d).linked = true ↔ (p.mark d).linked = true ∨ d ∈ linked)
  log : p'.log = p.log ++ records

section
variable {r c d : Cursor} {done done' linked linked' : List Cursor} {records records' : List Record}
  {p p' p'' : Progress}

theorem Changes.refl : Changes r [] [] [] p p := ⟨by simp, by simp, by simp⟩

theorem Changes.trans (h : Changes r done linked records p p')
    (h' : Changes r done' linked' records' p' p'') :
    Changes r (done ++ done') (linked ++ linked') (records ++ records') p p'' := by
  refine ⟨fun d hd => ?_, fun d hd => ?_, ?_⟩
  · rw [h'.resolved d hd, h.resolved d hd, List.mem_append, or_assoc]
  · rw [h'.linked d hd, h.linked d hd, List.mem_append, or_assoc]
  · rw [h'.log, h.log, List.append_assoc]

theorem Changes.congr (h : Changes r done linked records p p') (hdone : ∀ d, d ∈ done ↔ d ∈ done')
    (hlinked : ∀ d, d ∈ linked ↔ d ∈ linked') : Changes r done' linked' records p p' := by
  refine ⟨fun d hd => ?_, fun d hd => ?_, h.log⟩
  · rw [h.resolved d hd, hdone]
  · rw [h.linked d hd, hlinked]

theorem changes_update (hc : r.Contains c) {f : Mark → Mark} (hlinked : ∀ m, (f m).linked = m.linked)
    (hresolved : ∀ m, (f m).resolved = m.resolved) :
    Changes r [] [] [] p (p.setMark c (f (p.mark c))) := by
  refine ⟨fun d hd => ?_, fun d hd => ?_, by simp [log]⟩ <;>
    (rw [mark_update hc hd p f]; split <;> simp [hlinked, hresolved])

theorem changes_place (hc : r.Contains c) (q : Placement) :
    Changes r [] [] [] p (p.setMark c { p.mark c with placement := q }) :=
  changes_update hc (f := fun m => { m with placement := q }) (fun _ => rfl) fun _ => rfl

theorem changes_link (hc : r.Contains c) :
    Changes r [] [c] [] p (p.setMark c { p.mark c with linked := true }) := by
  have hmem : ∀ d, r.Contains d → (d ∈ [c] ↔ d.path = c.path) := fun d hd => by
    rw [List.mem_singleton]
    exact ⟨fun h => h ▸ rfl, hd.eq_of_path hc⟩
  refine ⟨fun d hd => ?_, fun d hd => ?_, by simp [log]⟩
  · rw [mark_update hc hd p fun m => { m with linked := true }]
    split <;> simp
  · rw [mark_update hc hd p fun m => { m with linked := true }, hmem d hd]
    split <;> simp [*]

theorem changes_markResolved (hc : r.Contains c) :
    Changes r [c] [] [] p (p.setMark c { p.mark c with resolved := true }) := by
  have hmem : ∀ d, r.Contains d → (d ∈ [c] ↔ d.path = c.path) := fun d hd => by
    rw [List.mem_singleton]
    exact ⟨fun h => h ▸ rfl, hd.eq_of_path hc⟩
  refine ⟨fun d hd => ?_, fun d hd => ?_, by simp [log]⟩
  · rw [mark_update hc hd p fun m => { m with resolved := true }, hmem d hd]
    split <;> simp [*]
  · rw [mark_update hc hd p fun m => { m with resolved := true }]
    split <;> simp

theorem changes_record (records : List Record) : Changes r [] [] records p (p.record records) :=
  ⟨by simp, by simp, by simp [log, record]⟩

theorem Changes.pending_eq (h : Changes r done linked records p p') (hc : r.Contains c)
    (hapart : ∀ d ∈ done, ¬ c.Draws d) : p'.pending c = p.pending c := by
  refine pending_congr fun d hd => ?_
  rw [Bool.eq_iff_iff, h.resolved d (contains_of_draws hc hd)]
  exact or_iff_left fun hdone => hapart d hdone hd

end

end Progress

/-- What is recorded at a node itself. -/
def Locator.records (l : Locator) (c : Cursor) : List Record :=
  match c.rule with
  | .bare => [c.skipped]
  | _ =>
    match l.given? c with
    | some text => (l.settle c.role text.1 text.2).records
    | none => []

namespace Progress

/-- The nodes `cs` have been resolved. Their operands have been linked to them, and what is recorded at
each has been recorded in their order. -/
abbrev Performs (l : Locator) (r : Cursor) (cs : List Cursor) (p p' : Progress) : Prop :=
  Changes r cs (cs.flatMap Cursor.operands) (cs.flatMap l.records) p p'

/-- The operands `ds` have been linked and resolved, one after the other. -/
abbrev Supplies (l : Locator) (r : Cursor) (ds : List Cursor) (p p' : Progress) : Prop :=
  Changes r (ds.flatMap p.pending) (ds ++ (ds.flatMap p.pending).flatMap Cursor.operands)
    ((ds.flatMap p.pending).flatMap l.records) p p'

/-- The chain that `c` begins with has been dealt with: nothing was to be done, or the left operand
has been supplied. -/
def Ahead (l : Locator) (r c : Cursor) (p p' : Progress) : Prop :=
  p' = p ∨ ∃ left, c.child? "left" = some left ∧ Supplies l r [left] p p'

/-- The operands of `c` have been supplied, and then what is recorded at it has been recorded. -/
def Works (l : Locator) (r c : Cursor) (p p' : Progress) : Prop :=
  ∃ p₁, Supplies l r c.operands p p₁ ∧ Changes r [] [] (l.records c) p₁ p'

section
variable {l : Locator} {r c d left right : Cursor} {p p' p'' : Progress}

theorem Supplies.nil : Supplies l r [] p p := .refl

theorem Supplies.of_link (hd : r.Contains d)
    (h : Performs l r ((p.setMark d { p.mark d with linked := true }).pending d)
      (p.setMark d { p.mark d with linked := true }) p') : Supplies l r [d] p p' := by
  have hlink := changes_link (p := p) hd
  have hpending := hlink.pending_eq hd (by simp)
  rw [hpending] at h
  simpa [Supplies] using hlink.trans h

theorem Supplies.resolved (h : Supplies l r [d] p p') (hd : r.Contains d) :
    (p'.mark d).resolved = true := by
  rw [Changes.resolved h d hd, List.flatMap_singleton]
  cases hres : (p.mark d).resolved with
  | true => exact Or.inl rfl
  | false => exact Or.inr (mem_pending_self hres)

theorem Supplies.again (h : Supplies l r [d] p p') (h' : Supplies l r [d] p' p'')
    (hd : r.Contains d) : Supplies l r [d] p p'' := by
  have hnone : p'.pending d = [] := pending_of_resolved (h.resolved hd)
  have htrans := h.trans h'
  simp only [List.flatMap_singleton, hnone, List.append_nil, List.flatMap_nil] at htrans
  refine Changes.congr (by simpa using htrans) (by simp) fun e => ?_
  simp only [List.mem_append, List.mem_cons, List.flatMap_singleton]
  tauto

/-- Operands that have nothing in common are supplied one after the other. -/
theorem Supplies.pair (h : Supplies l r [left] p p') (h' : Supplies l r [right] p' p'')
    (hright : r.Contains right) (hapart : ∀ d, left.Draws d → ¬ right.Draws d) :
    Supplies l r [left, right] p p'' := by
  have hpending : p'.pending right = p.pending right := by
    refine Changes.pending_eq h hright fun d hd => hapart d ?_
    exact draws_of_mem_pending (by simpa using hd)
  have htrans := h.trans h'
  simp only [List.flatMap_singleton, hpending] at htrans
  refine Changes.congr (by simpa [Supplies, List.flatMap_cons] using htrans) (by simp) fun e => ?_
  simp only [List.mem_append, List.flatMap_cons, List.flatMap_nil, List.append_nil,
    List.flatMap_append, List.mem_cons, List.not_mem_nil, or_false]
  tauto

/-- A chain takes its part of the left operand's nodes, and leaves the rest. -/
theorem Ahead.supplies (h : Ahead l r c p p') (hleft : c.child? "left" = some left)
    (hin : r.Contains left) (h' : Supplies l r [left] p' p'') : Supplies l r [left] p p'' := by
  rcases h with rfl | ⟨left', hleft', h⟩
  · exact h'
  · obtain rfl : left' = left := Option.some.inj (hleft'.symm.trans hleft)
    exact h.again h' hin

/-- What a chain has taken from the nodes of an operator is not done again when that is resolved. -/
theorem Ahead.performs (h : Ahead l r c p p') (hc : r.Contains c) (hr : c.rule = .operator left right)
    (hres : (p.mark c).resolved = false) (h' : Performs l r (p'.pending c) p' p'') :
    Performs l r (p.pending c) p p'' := by
  rcases h with rfl | ⟨left', hleft', h⟩
  · exact h'
  obtain ⟨hchildLeft, hchildRight⟩ := Cursor.children_of_operator hr
  obtain rfl : left' = left := Option.some.inj (hleft'.symm.trans hchildLeft)
  have hops := Cursor.operands_operator hr
  have hdone : ∀ d ∈ [left'].flatMap p.pending, left'.Contains d := fun d hd =>
    contains_of_draws .refl (draws_of_mem_pending (by simpa using hd))
  have hres' : (p'.mark c).resolved = false := by
    rw [Bool.eq_false_iff, ne_eq, Changes.resolved h c hc, hres]
    rintro (hfalse | hmem)
    · cases hfalse
    · exact Cursor.Contains.not_child hchildLeft (hdone c hmem)
  have hpendingLeft : p'.pending left' = [] :=
    pending_of_resolved (h.resolved (hc.child hchildLeft))
  have hpendingRight : p'.pending right = p.pending right :=
    Changes.pending_eq h (hc.child hchildRight) fun d hd hdraw =>
      Cursor.Contains.disjoint hchildLeft hchildRight (by decide) (hdone d hd)
        (contains_of_draws .refl hdraw)
  -- what was pending is what the chain has done, and then what is pending still
  have hpending : p.pending c = p.pending left' ++ p'.pending c := by
    rw [pending_of_unresolved hres, pending_of_unresolved hres', hops]
    simp [List.flatMap_cons, hpendingLeft, hpendingRight]
  have htrans := h.trans h'
  rw [hpending]
  refine Changes.congr (by simpa [List.flatMap_append] using htrans) (fun _ => Iff.rfl) fun e => ?_
  have hmem : e = left' → e ∈ (p'.pending c).flatMap Cursor.operands := by
    rintro rfl
    exact List.mem_flatMap.2 ⟨c, mem_pending_self hres', by simp [hops]⟩
  simp only [List.mem_cons, List.mem_append, List.flatMap_append]
  tauto

theorem Works.performs (hc : r.Contains c) (hres : (p.mark c).resolved = false)
    (h : Works l r c (p.setMark c { p.mark c with resolved := true }) p') :
    Performs l r (p.pending c) p p' := by
  obtain ⟨p₁, hsupplies, hrecords⟩ := h
  have hmark := changes_markResolved (p := p) hc
  have hpending : c.operands.flatMap (p.setMark c { p.mark c with resolved := true }).pending =
      c.operands.flatMap p.pending := by
    rw [List.flatMap_def, List.flatMap_def]
    refine congrArg List.flatten (List.map_congr_left fun d hd => ?_)
    refine hmark.pending_eq (contains_operand hc hd) fun e he hdraw => ?_
    obtain rfl := List.mem_singleton.1 he
    obtain ⟨name, -, hchild⟩ := Cursor.child_of_mem_operands hd
    exact Cursor.Contains.not_child hchild (contains_of_draws .refl hdraw)
  unfold Supplies at hsupplies
  rw [hpending] at hsupplies
  have htrans := (hmark.trans hsupplies).trans hrecords
  rw [pending_of_unresolved hres]
  refine Changes.congr (by simpa [List.flatMap_append] using htrans) (fun e => ?_) fun e => ?_
  · simp [or_comm]
  · simp only [List.flatMap_append, List.flatMap_singleton, List.mem_append]
    tauto

end

end Progress

/-! ## Resolving -/

namespace Locator

open Progress

section
variable {l : Locator} {r c d : Cursor} {busy : List Path} {p p' : Progress}

theorem settleAt_changes {raw : Text} (hc : r.Contains c)
    (hl : c.path = [] ∨ (p.mark c).linked = true) :
    Outcome (l.settleAt c raw) p (fun _ p' =>
        Changes r [] [] (l.settle c.role raw (p.mark c).placement.toAnchor).records p p')
      (fun _ _ => True) := by
  rw [outcome_settleAt, held_eq hl]
  simp only
  split
  · trivial
  · exact (changes_place hc _).trans (changes_record _)

theorem records_of_given {text : Text × Anchor} (hgiven : l.given? c = some text) :
    l.records c = (l.settle c.role text.1 text.2).records := by
  unfold records
  split
  · next hbare =>
    rw [given?, hbare] at hgiven
    cases hgiven
  · rw [hgiven]

variable {chain : Resolving Unit} {operand : Cursor → Resolving Unit}

theorem spanOperands_changes {left right : Cursor} (hc : r.Contains c)
    (hl : c.path = [] ∨ (p.mark c).linked = true) (hr : c.rule = .operator left right)
    (hp : l.final? left = some (p.mark left).placement)
    (hq : l.final? right = some (p.mark right).placement) :
    Outcome (l.spanOperands c left right) p
      (fun _ p' => l.Spanned left ∧ Changes r [] [] (l.records c) p p') (fun _ _ => True) := by
  rw [spanOperands, outcome_bind, outcome_placement, outcome_bind, outcome_placement]
  split
  · next first last hfirst hlast =>
    have hgiven : l.given? c = l.between? (p.mark left).placement (p.mark right).placement := by
      simp only [given?, hr, hp, hq, Option.bind_some]
    rw [between?, hfirst, hlast] at hgiven
    rw [outcome_bind, outcome_place]
    refine (settleAt_changes hc (hl.imp id fun h => ?_)).imp (fun _ p' h' => ?_) fun _ _ hf => hf
    · rw [mark_setMark_self]
      exact h
    · rw [mark_setMark_self] at h'
      refine ⟨⟨_, first, hp, hfirst⟩, ?_⟩
      rw [records_of_given hgiven]
      exact (changes_place hc _).trans h'
  · trivial

theorem negation_changes (hc : r.Contains c) (hl : c.path = [] ∨ (p.mark c).linked = true)
    (hr : c.rule = .negation d) (hbusy : d.path ∉ busy)
    (hoperand : Outcome (operand d) p
      (fun _ p' => Reaches l r busy d p p' ∧ Supplies l r [d] p p') fun _ _ => True) :
    Outcome (l.locateNegation operand c d) p (fun _ p' => Works l r c p p') fun _ _ => True := by
  have hops := Cursor.operands_negation hr
  rw [locateNegation, outcome_bind]
  refine hoperand.imp (fun _ p₁ h₁ => ?_) fun _ _ hf => hf
  obtain ⟨hreach, hsupplies⟩ := h₁
  have hd : r.Contains d := contains_operand hc (by simp [hops])
  have hplace := hreach.faithful.final d hd hreach.done hbusy
  rw [outcome_bind, outcome_placement]
  split
  · trivial
  · next raw hraw =>
    have hgiven : l.given? c = some (raw, (p₁.mark d).placement.toAnchor) := by
      simp only [given?, hr, hplace, Option.bind_some, Placement.text?, hraw, Option.map_some]
    rw [outcome_bind, outcome_place]
    refine (settleAt_changes hc (hl.imp id fun h => ?_)).imp (fun _ p₂ h₂ => ⟨p₁, ?_, ?_⟩)
      fun _ _ hf => hf
    · rw [mark_setMark_self]
      exact hreach.keeps.linked c hc h
    · rw [hops]
      exact hsupplies
    · rw [mark_setMark_self] at h₂
      rw [records_of_given hgiven]
      exact (changes_place hc _).trans h₂

theorem operator_changes {left right : Cursor} (hc : r.Contains c)
    (hl : c.path = [] ∨ (p.mark c).linked = true) (hr : c.rule = .operator left right)
    (hbusy : ∀ d ∈ c.operands, d.path ∉ c.path :: busy)
    (hchain : Outcome chain p (fun _ p' => SpineReaches l r (c.path :: busy) c p p' ∧
      ((∀ d, c.child? "left" = some d → l.Spanned d) → Ahead l r c p p')) fun _ _ => True)
    (hoperand : ∀ d ∈ c.operands, ∀ p₁ : Progress, p₁.Faithful l r (c.path :: busy) →
      Outcome (operand d) p₁ (fun _ p₂ => Reaches l r (c.path :: busy) d p₁ p₂ ∧
        Supplies l r [d] p₁ p₂) fun _ _ => True) :
    Outcome (l.locateOperator chain operand c left right) p (fun _ p' => Works l r c p p')
      fun _ _ => True := by
  have hops := Cursor.operands_operator hr
  obtain ⟨hchildLeft, hchildRight⟩ := Cursor.children_of_operator hr
  have hinLeft : r.Contains left := hc.child hchildLeft
  have hinRight : r.Contains right := hc.child hchildRight
  have hmemLeft : left ∈ c.operands := by simp [hops]
  have hmemRight : right ∈ c.operands := by simp [hops]
  rw [locateOperator, outcome_bind]
  refine hchain.imp (fun _ p₁ h₁ => ?_) fun _ _ hf => hf
  obtain ⟨hspine, hahead⟩ := h₁
  rw [outcome_bind]
  refine (hoperand left hmemLeft p₁ hspine.faithful).imp (fun _ p₂ h₂ => ?_) fun _ _ hf => hf
  obtain ⟨hreach₂, hsupplies₂⟩ := h₂
  rw [outcome_bind]
  refine (hoperand right hmemRight p₂ hreach₂.faithful).imp (fun _ p₃ h₃ => ?_) fun _ _ hf => hf
  obtain ⟨hreach₃, hsupplies₃⟩ := h₃
  have hdoneLeft := hreach₃.keeps.resolved left hinLeft hreach₂.done
  have hkeeps := (hspine.keeps.trans hreach₂.keeps).trans hreach₃.keeps
  have hp := hreach₃.faithful.final left hinLeft hdoneLeft (hbusy left hmemLeft)
  have hq := hreach₃.faithful.final right hinRight hreach₃.done (hbusy right hmemRight)
  refine (spanOperands_changes hc (hl.imp id (hkeeps.linked c hc)) hr hp hq).imp
    (fun _ p₄ h₄ => ?_) fun _ _ hf => hf
  obtain ⟨hspan, hrecords⟩ := h₄
  refine ⟨p₃, ?_, hrecords⟩
  -- the chain has done its part of the left operand ahead, and nothing of the right one
  have hleft := (hahead (spanned_left hr hspan)).supplies hchildLeft hinLeft hsupplies₂
  rw [hops]
  refine hleft.pair hsupplies₃ hinRight fun d hd hd' => ?_
  exact Cursor.Contains.disjoint hchildLeft hchildRight (by decide)
    (contains_of_draws .refl hd) (contains_of_draws .refl hd')

/-- Finding the place of a node supplies its operands, whatever its chain has done ahead. -/
theorem locateBy_changes (hc : r.Contains c) (hl : c.path = [] ∨ (p.mark c).linked = true)
    (hb : ∀ q ∈ busy, q.length < c.path.length) (hfresh : (p.mark c).placement = c.node.placement)
    (hfaithful : p.Faithful l r (c.path :: busy))
    (hchain : Outcome chain p (fun _ p' => SpineReaches l r (c.path :: busy) c p p' ∧
      ((∀ d, c.child? "left" = some d → l.Spanned d) → Ahead l r c p p')) fun _ _ => True)
    (hoperand : ∀ d ∈ c.operands, ∀ p₁ : Progress, p₁.Faithful l r (c.path :: busy) →
      Outcome (operand d) p₁ (fun _ p₂ => Reaches l r (c.path :: busy) d p₁ p₂ ∧
        Supplies l r [d] p₁ p₂) fun _ _ => True) :
    Outcome (l.locateBy chain operand c) p (fun _ p' => Works l r c p p') fun _ _ => True := by
  have hbusy : ∀ d ∈ c.operands, d.path ∉ c.path :: busy := fun d hd =>
    path_not_busy (length_lt_of_operand hb hd)
  refine outcome_locateBy hl hfresh (fun raw hr => ?own) (fun hr => ?bare)
    (fun d hr => ?negation) (fun left right hr => ?operator) fun _ _ _ => trivial
  case own =>
    have hgiven : l.given? c = some (raw, (p.mark c).placement.toAnchor) := by
      rw [given?, hr, hfresh]
    refine (settleAt_changes hc hl).imp (fun _ p' h' => ⟨p, ?_, ?_⟩) fun _ _ hf => hf
    · rw [Cursor.operands_own hr]
      exact Supplies.nil
    · rw [records_of_given hgiven]
      exact h'
  case bare =>
    refine ⟨p, ?_, ?_⟩
    · rw [Cursor.operands_bare hr]
      exact Supplies.nil
    · rw [records, hr]
      exact changes_record _
  case negation =>
    have hmem : d ∈ c.operands := by simp [Cursor.operands_negation hr]
    exact negation_changes hc hl hr (hbusy d hmem) (hoperand d hmem p hfaithful)
  case operator => exact operator_changes hc hl hr hbusy hchain hoperand

theorem once_changes {step : Resolving Unit} (hc : r.Contains c)
    (hl : c.path = [] ∨ (p.mark c).linked = true) (h : p.Faithful l r busy)
    (hstep : ∀ p' : Progress, Underway l r busy c p p' →
      (p'.mark c).placement = c.node.placement →
      Outcome step p' (fun _ p'' => Works l r c p' p'') fun _ _ => True) :
    Outcome (once c step) p (fun _ p' => Performs l r (p.pending c) p p') fun _ _ => True := by
  rw [once, outcome_bind, outcome_mark]
  split
  · next hres =>
    rw [outcome_pure, pending_of_resolved hres]
    exact .refl
  · next hres =>
    have hres : (p.mark c).resolved = false := by simpa using hres
    rw [outcome_bind, outcome_markResolved]
    refine (hstep _ (.start hc hl h) ?_).imp (fun _ p' h' => h'.performs hc hres) fun _ _ hf => hf
    rw [mark_setMark_self]
    exact h.fresh c hc hres

mutual

/-- **Resolving a node** resolves all that is left to do for it, links the operands, and records what
is recorded at each, in the order of `pending`. -/
theorem resolve_changes {c : Cursor} {busy : List Path} {p : Progress} (hc : r.Contains c)
    (hl : c.path = [] ∨ (p.mark c).linked = true) (hb : ∀ q ∈ busy, q.length < c.path.length)
    (h : p.Faithful l r busy) :
    Outcome (l.resolve c) p (fun _ p' => Performs l r (p.pending c) p p') fun _ _ => True := by
  rw [resolve_eq]
  exact once_changes hc hl h fun p' h' hfresh => locate_changes hc hb h' hfresh
termination_by (sizeOf c.node, 2)

theorem locate_changes {c : Cursor} {busy : List Path} {p p' : Progress} (hc : r.Contains c)
    (hb : ∀ q ∈ busy, q.length < c.path.length) (h : Underway l r busy c p p')
    (hfresh : (p'.mark c).placement = c.node.placement) :
    Outcome (l.locate c) p' (fun _ p'' => Works l r c p' p'') fun _ _ => True := by
  rw [locate_eq]
  refine locateBy_changes hc h.linked hb hfresh h.faithful ?_ fun d hd p₁ h₁ => ?_
  · exact ((resolveSpine_outcome hc (length_le_of_busy hb) h.faithful).and
      (resolveSpine_changes hc (length_le_of_busy hb) h.faithful)).imp (fun _ _ h => h)
      fun _ _ _ => trivial
  · have := Cursor.sizeOf_operand_lt hd
    have hin := contains_operand hc hd
    have hlength := length_lt_of_operand hb hd
    exact ((resolveOperand_outcome hin hlength h₁).and (resolveOperand_changes hin hlength h₁)).imp
      (fun _ _ h => h) fun _ _ _ => trivial
termination_by (sizeOf c.node, 1)

theorem resolveOperand_changes {c : Cursor} {busy : List Path} {p : Progress} (hc : r.Contains c)
    (hb : ∀ q ∈ busy, q.length < c.path.length) (h : p.Faithful l r busy) :
    Outcome (l.resolveOperand c) p (fun _ p' => Supplies l r [c] p p') fun _ _ => True := by
  rw [resolveOperand, outcome_bind, outcome_link]
  refine (resolve_changes hc (Or.inr ?_) hb (h.link hc)).imp (fun _ p' h' => .of_link hc h')
    fun _ _ hf => hf
  rw [mark_setMark_self]
termination_by (sizeOf c.node, 3)

/-- The chain deals with the left operand's nodes, innermost operator first, which is their order. -/
theorem resolveSpine_changes {c : Cursor} {busy : List Path} {p : Progress} (hc : r.Contains c)
    (hb : ∀ q ∈ busy, q.length ≤ c.path.length) (h : p.Faithful l r busy) :
    Outcome (l.resolveSpine c) p
      (fun _ p' => (∀ left, c.child? "left" = some left → l.Spanned left) → Ahead l r c p p')
      fun _ _ => True := by
  rw [resolveSpine]
  split
  · exact fun _ => Or.inl rfl
  · next left hchild =>
    have hleft : r.Contains left := hc.child hchild
    have hpath := Cursor.path_of_child? hchild
    have := Cursor.sizeOf_child?_lt hchild
    have hlength : ∀ q ∈ busy, q.length < left.path.length := fun q hq => by
      have := hb q hq
      rw [hpath, List.length_cons]
      omega
    rw [outcome_bind, outcome_mark]
    split
    · next hcond =>
      simp only [Bool.and_eq_true, Option.isNone_iff_eq_none, Bool.not_eq_true'] at hcond
      obtain ⟨⟨hraw, hunresolved⟩, -⟩ := hcond
      rw [h.fresh left hleft hunresolved] at hraw
      have hlink := h.link hleft
      have hweak : ∀ q ∈ busy, q.length ≤ left.path.length := fun q hq =>
        Nat.le_of_lt (hlength q hq)
      rw [outcome_bind, outcome_link, outcome_bind]
      -- after the chain of the left operand, less is left to do for the operand itself
      refine ((resolveSpine_outcome hleft hweak hlink).and
        (resolveSpine_changes hleft hweak hlink)).imp (fun _ p₁ ⟨hspine, hahead⟩ => ?_)
        fun _ _ _ => trivial
      refine (resolve_changes hleft (Or.inr (hspine.keeps.linked left hleft ?_)) hlength
        hspine.faithful).imp (fun _ p₂ h₂ hs => Or.inr ⟨left, hchild, .of_link hleft ?_⟩)
        fun _ _ _ => trivial
      · rw [mark_setMark_self]
      · obtain ⟨a, b, hr, hspan⟩ :=
          operator_of_spanned hraw (by simp [Cursor.isIn, hpath]) (hs left hchild)
        refine (hahead (spanned_left hr hspan)).performs hleft hr ?_ h₂
        rw [mark_setMark_self]
        exact hunresolved
    · exact fun _ => Or.inl rfl
termination_by (sizeOf c.node, 0)

end

end

end Locator

end SyntaxSpans
