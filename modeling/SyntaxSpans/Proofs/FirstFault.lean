import SyntaxSpans.Proofs.Faults
import SyntaxSpans.Proofs.Resolution

/-!
# The resolver meets the first fault first

A node of which nothing has been resolved yet is resolved without a fault, or with just the fault that
`Locator.fault?` names (`resolve_fault`). A chain of operators is resolved from the inside, so a node
may have been made `Ready` by its own chain: its left operand is done, and all else is as it was.

Nothing above or beside a node changes while it is resolved (`Frames`). So the gap at a node speaks of
the position that was reported for it, and its right operand is as it was when its turn comes.
-/

namespace SyntaxSpans

namespace Progress

/-- Nothing at or below the node has been resolved. -/
def Untouched (p : Progress) (c : Cursor) : Prop := ∀ d, c.Contains d → (p.mark d).resolved = false

/-- Outside the tree below `c` nothing has changed. -/
def Frames (r c : Cursor) (p p' : Progress) : Prop :=
  ∀ d, r.Contains d → ¬ c.Contains d → p'.mark d = p.mark d

/-- The operands of `c` are as they were, apart from what the chain of operators has resolved that `c`
begins with. -/
structure Ready (l : Locator) (c : Cursor) (p : Progress) : Prop where
  operand : ∀ d, c.rule = .negation d → p.Untouched d
  left : ∀ left, c.child? "left" = some left →
    p.Untouched left ∨ (p.mark left).resolved = true ∧ l.chainFault? c = none
  right : ∀ right, c.child? "right" = some right → p.Untouched right

/-- The operators without text that `c` begins with have been resolved, and had no fault. -/
structure Unchained (l : Locator) (r c : Cursor) (p p' : Progress) : Prop where
  quiet : l.chainFault? c = none
  frames : ∀ d, r.Contains d → (∀ left, c.child? "left" = some left → ¬ left.Contains d) →
    p'.mark d = p.mark d
  left : ∀ left, c.child? "left" = some left → p'.Untouched left ∨ (p'.mark left).resolved = true

section
variable {l : Locator} {r c d : Cursor} {busy : List Path} {p p' p'' : Progress}

/-- A node that has been resolved had no fault. -/
theorem Reaches.quiet (hc : r.Contains c) (hb : c.path ∉ busy) (h : Reaches l r busy c p p') :
    l.fault? c = none := by
  rw [Locator.fault?_eq_none_iff, h.faithful.final c hc h.done hb]
  exact Option.some_ne_none _

theorem Frames.trans (h : Frames r c p p') (h' : Frames r c p' p'') : Frames r c p p'' :=
  fun d hd hnot => (h' d hd hnot).trans (h d hd hnot)

theorem Frames.of_contains (hd : c.Contains d) (h : Frames r d p p') : Frames r c p p' :=
  fun e he hnot => h e he fun hde => hnot (hd.trans hde)

theorem frames_setMark (hc : r.Contains c) (m : Mark) : Frames r c p (p.setMark c m) := by
  intro d hd hnot
  have hne : d.path ≠ c.path := fun heq => hnot (hd.eq_of_path hc heq ▸ .refl)
  rw [mark_setMark, if_neg hne]

theorem Untouched.of_frames (hd : r.Contains d) (h : p.Untouched d) (hf : Frames r c p p')
    (hapart : ∀ e, d.Contains e → ¬ c.Contains e) : p'.Untouched d := by
  intro e he
  rw [hf e (hd.trans he) (hapart e he)]
  exact h e he

theorem Untouched.child {name : String} (h : p.Untouched c) (hd : c.child? name = some d) :
    p.Untouched d :=
  fun e he => h e ((Cursor.Contains.refl.child hd).trans he)

/-- A mark at a node does not touch what its fields hold. -/
theorem Untouched.setMark {name : String} (hd : c.child? name = some d) (h : p.Untouched d)
    (m : Mark) : (p.setMark c m).Untouched d := by
  intro e he
  have hne : e.path ≠ c.path := by
    intro heq
    have hlen := he.length_path_le
    rw [Cursor.path_of_child? hd, heq, List.length_cons] at hlen
    omega
  rw [mark_setMark, if_neg hne]
  exact h e he

theorem Untouched.link (hc : r.Contains c) (h : p.Untouched c) :
    (p.setMark c { p.mark c with linked := true }).Untouched c := by
  intro d hd
  rw [mark_update hc (hc.trans hd) p fun m => { m with linked := true }]
  split <;> exact h d hd

theorem ready_of_untouched (h : p.Untouched c) : p.Ready l c :=
  ⟨fun _ hd => h.child (Cursor.child_of_negation hd), fun _ hleft => Or.inl (h.child hleft),
    fun _ hright => h.child hright⟩

theorem Ready.setMark (h : p.Ready l c) (m : Mark) : (p.setMark c m).Ready l c := by
  refine ⟨fun d hd => ?_, fun left hleft => ?_, fun right hright => ?_⟩
  · exact (h.operand d hd).setMark (Cursor.child_of_negation hd) m
  · refine (h.left left hleft).imp (fun hl => hl.setMark hleft m) fun ⟨hres, hquiet⟩ => ⟨?_, hquiet⟩
    have hne : left.path ≠ c.path := by
      intro heq
      have := congrArg List.length (heq.symm.trans (Cursor.path_of_child? hleft))
      rw [List.length_cons] at this
      omega
    rw [mark_setMark, if_neg hne]
    exact hres
  · exact (h.right right hright).setMark hright m

theorem Unchained.frames_self (h : Unchained l r c p p') : Frames r c p p' :=
  fun d hd hnot => h.frames d hd fun _ hleft hin => hnot ((Cursor.Contains.refl.child hleft).trans hin)

/-- The chain of operators leaves the right operand alone. -/
theorem Unchained.right (hc : r.Contains c) (h : Unchained l r c p p')
    (hd : c.child? "right" = some d) (hu : p.Untouched d) : p'.Untouched d := by
  intro e he
  rw [h.frames e ((hc.child hd).trans he) fun left hleft hin =>
    Cursor.Contains.disjoint hleft hd (by decide) hin he]
  exact hu e he

/-- An operator whose chain has been resolved comes next. -/
theorem Unchained.ready (hc : r.Contains c) (h : Unchained l r c p p') (hu : p.Untouched c)
    (hguard : c.isNegatedGuard = false) : p'.Ready l c ∧ (p'.mark c).resolved = false := by
  refine ⟨⟨fun d hd => ?_, fun left hleft => ?_, fun right hright => ?_⟩, ?_⟩
  · rw [Cursor.isNegatedGuard_of_negation hd] at hguard
    cases hguard
  · exact (h.left left hleft).imp id fun hres => ⟨hres, h.quiet⟩
  · exact h.right hc hright (hu.child hright)
  · rw [h.frames c hc fun left hleft => Cursor.Contains.not_child hleft]
    exact hu c .refl

end

end Progress

namespace Locator

open Progress

section
variable {l : Locator} {r c d : Cursor} {busy : List Path} {p p' : Progress}

theorem settleAt_fault {raw : Text} (hc : r.Contains c)
    (hl : c.path = [] ∨ (p.mark c).linked = true) :
    Outcome (l.settleAt c raw) p (fun _ p' => Frames r c p p')
      (fun e _ => (l.settle c.role raw (p.mark c).placement.toAnchor).fault = some e) := by
  rw [outcome_settleAt, held_eq hl]
  have hs : l.settle ⟨c.kind, c.isIn "step"⟩ raw (p.mark c).placement.toAnchor =
      l.settle c.role raw (p.mark c).placement.toAnchor := rfl
  simp only [hs]
  split
  · next fault hf => exact hf
  · intro d hd hnot
    rw [mark_record]
    exact frames_setMark hc _ d hd hnot

/-- A negated condition ends in the fault of its operand, or in its own. -/
theorem negation_fault (hc : r.Contains c) (hr : c.rule = .negation d)
    (hl : c.path = [] ∨ (p.mark c).linked = true)
    (hfresh : (p.mark c).placement = c.node.placement) (hbusy : d.path ∉ busy)
    (hoperand : Outcome (l.resolveOperand d) p
      (fun _ p' => Reaches l r busy d p p' ∧ Frames r d p p') (fun e _ => l.fault? d = some e)) :
    Outcome (l.locateNegation l.resolveOperand c d) p (fun _ p' => Frames r c p p')
      (fun e _ => l.fault? c = some e) := by
  have hchild := Cursor.child_of_negation hr
  have hd := hc.child hchild
  rw [locateNegation, outcome_bind, fault?_negation hr]
  refine hoperand.imp (fun _ p₁ h₁ => ?_) fun _ _ hf => by rw [hf]; rfl
  obtain ⟨hreach, hframe⟩ := h₁
  have hplace := hreach.faithful.final d hd hreach.done hbusy
  -- the operand has changed nothing above it, so the negation is as it was reported
  have hsame := hframe c hc (Cursor.Contains.not_child hchild)
  have hgiven : l.given? c = (p₁.mark d).placement.text? := by
    simp only [given?, hr, hplace, Option.bind_some]
  have hframe' := hframe.of_contains (Cursor.Contains.refl.child hchild)
  rw [hreach.quiet hd hbusy, Option.none_or, ownFault?, hgiven, outcome_bind, outcome_placement]
  split
  · next hraw =>
    rw [outcome_gap, hsame, hfresh]
    simp only [Placement.text?, hraw, Option.map_none, Cursor.unplaced?, hr]
    rfl
  · next raw hraw =>
    rw [outcome_bind, outcome_place]
    refine (settleAt_fault hc ?_).imp (fun _ p₂ h₂ => ?_) fun e _ hf => ?_
    · rw [mark_setMark_self]
      exact hsame ▸ hl
    · exact (hframe'.trans (frames_setMark hc _)).trans h₂
    · rw [mark_setMark_self] at hf
      simpa only [Placement.text?, hraw, Option.map_some] using hf

theorem spanOperands_fault {left right : Cursor} (hc : r.Contains c)
    (hr : c.rule = .operator left right) (hl : c.path = [] ∨ (p.mark c).linked = true)
    (hfresh : (p.mark c).placement = c.node.placement)
    (hp : l.final? left = some (p.mark left).placement)
    (hq : l.final? right = some (p.mark right).placement) :
    Outcome (l.spanOperands c left right) p (fun _ p' => Frames r c p p')
      (fun e _ => l.ownFault? c = some e) := by
  have hgiven : l.given? c = l.between? (p.mark left).placement (p.mark right).placement := by
    simp only [given?, hr, hp, hq, Option.bind_some]
  rw [ownFault?, hgiven, spanOperands, outcome_bind, outcome_placement, outcome_bind,
    outcome_placement]
  split
  · next first last hfirst hlast =>
    rw [outcome_bind, outcome_place]
    refine (settleAt_fault hc ?_).imp (fun _ p' h' => (frames_setMark hc _).trans h') fun e _ hf => ?_
    · rw [mark_setMark_self]
      exact hl
    · rw [mark_setMark_self] at hf
      simpa only [between?, hfirst, hlast] using hf
  · next hnone =>
    have hbetween : l.between? (p.mark left).placement (p.mark right).placement = none := by
      unfold between?
      split
      · next first last hfirst hlast => exact absurd hlast (hnone first last hfirst)
      · rfl
    rw [outcome_gap, hfresh]
    simp only [hbetween, Cursor.unplaced?, hr]
    rfl

/-- An operator ends in the fault of its chain, of its left operand or of its right one, whichever comes
first, or in its own. -/
theorem operator_fault {left right : Cursor} (hc : r.Contains c)
    (hr : c.rule = .operator left right) (hl : c.path = [] ∨ (p.mark c).linked = true)
    (hfresh : (p.mark c).placement = c.node.placement) (hready : p.Ready l c)
    (hbusy : ∀ d ∈ c.operands, d.path ∉ busy)
    (hspine : Outcome (l.resolveSpine c) p
      (fun _ p' => SpineReaches l r busy c p p' ∧ Unchained l r c p p')
      (fun e _ => l.chainFault? c = some e))
    (hoperand : ∀ d ∈ c.operands, ∀ p₁ : Progress, p₁.Faithful l r busy →
      p₁.Untouched d ∨ (p₁.mark d).resolved = true → Outcome (l.resolveOperand d) p₁
        (fun _ p₂ => Reaches l r busy d p₁ p₂ ∧ Frames r d p₁ p₂)
        (fun e _ => l.fault? d = some e)) :
    Outcome (l.locateOperator (l.resolveSpine c) l.resolveOperand c left right) p
      (fun _ p' => Frames r c p p')
      (fun e _ => l.fault? c = some e) := by
  obtain ⟨hleft, hright⟩ := Cursor.children_of_operator hr
  have hops := Cursor.operands_operator hr
  have hl₁ : left ∈ c.operands := by simp [hops]
  have hr₁ : right ∈ c.operands := by simp [hops]
  have hinLeft := hc.child hleft
  have hinRight := hc.child hright
  rw [locateOperator, outcome_bind, fault?_operator hr]
  refine hspine.imp (fun _ p₁ h₁ => ?_) fun _ _ hf => by rw [hf]; rfl
  obtain ⟨hspined, hchain⟩ := h₁
  rw [outcome_bind, hchain.quiet, Option.none_or]
  refine (hoperand left hl₁ p₁ hspined.faithful (hchain.left left hleft)).imp
    (fun _ p₂ h₂ => ?_) fun _ _ hf => by rw [hf]; rfl
  obtain ⟨hreach₂, hframe₂⟩ := h₂
  have huntouched : p₂.Untouched right :=
    (hchain.right hc hright (hready.right right hright)).of_frames hinRight hframe₂
      fun e he hin => Cursor.Contains.disjoint hright hleft (by decide) he hin
  rw [outcome_bind, hreach₂.quiet hinLeft (hbusy left hl₁), Option.none_or]
  refine (hoperand right hr₁ p₂ hreach₂.faithful (Or.inl huntouched)).imp
    (fun _ p₃ h₃ => ?_) fun _ _ hf => by rw [hf]; rfl
  obtain ⟨hreach₃, hframe₃⟩ := h₃
  have hframe : Frames r c p p₃ :=
    (hchain.frames_self.trans (hframe₂.of_contains (Cursor.Contains.refl.child hleft))).trans
      (hframe₃.of_contains (Cursor.Contains.refl.child hright))
  have hleftDone := hreach₃.keeps.resolved left hinLeft hreach₂.done
  -- neither operand is above its operator
  have hsame : p₃.mark c = p.mark c := by
    rw [hframe₃ c hc (Cursor.Contains.not_child hright),
      hframe₂ c hc (Cursor.Contains.not_child hleft),
      hchain.frames c hc fun left' hleft' => Cursor.Contains.not_child hleft']
  rw [hreach₃.quiet hinRight (hbusy right hr₁), Option.none_or]
  refine (spanOperands_fault hc hr (hsame ▸ hl) (hsame ▸ hfresh) ?_ ?_).imp
    (fun _ p₄ h₄ => hframe.trans h₄) fun _ _ hf => hf
  · exact hreach₃.faithful.final left hinLeft hleftDone (hbusy left hl₁)
  · exact hreach₃.faithful.final right hinRight hreach₃.done (hbusy right hr₁)

mutual

/-- **A node is resolved** without a fault, or with the first one on its way. -/
theorem resolve_fault {c : Cursor} {busy : List Path} {p : Progress} (hc : r.Contains c)
    (hl : c.path = [] ∨ (p.mark c).linked = true) (hb : ∀ q ∈ busy, q.length < c.path.length)
    (h : p.Faithful l r busy) (hready : p.Ready l c) (hfresh : (p.mark c).resolved = false) :
    Outcome (l.resolve c) p (fun _ p' => Frames r c p p') (fun e _ => l.fault? c = some e) := by
  rw [resolve, outcome_bind, outcome_mark, hfresh, if_neg Bool.false_ne_true, outcome_bind,
    outcome_markResolved]
  have hplace := h.fresh c hc hfresh
  refine (locate_fault hc hb (.start hc hl h) (hready.setMark _) ?_).imp
    (fun _ p' h' => (frames_setMark hc _).trans h') fun _ _ hf => hf
  rw [mark_setMark_self]
  exact hplace
termination_by (sizeOf c.node, 2)

theorem locate_fault {c : Cursor} {busy : List Path} {p p' : Progress} (hc : r.Contains c)
    (hb : ∀ q ∈ busy, q.length < c.path.length) (h : Underway l r busy c p p')
    (hready : p'.Ready l c) (hfresh : (p'.mark c).placement = c.node.placement) :
    Outcome (l.locate c) p' (fun _ p'' => Frames r c p' p'') (fun e _ => l.fault? c = some e) := by
  have hbusy : ∀ d ∈ c.operands, d.path ∉ c.path :: busy := fun d hd =>
    path_not_busy (length_lt_of_operand hb hd)
  have hoperand : ∀ d ∈ c.operands, ∀ p₁ : Progress, p₁.Faithful l r (c.path :: busy) →
      p₁.Untouched d ∨ (p₁.mark d).resolved = true → Outcome (l.resolveOperand d) p₁
        (fun _ p₂ => Reaches l r (c.path :: busy) d p₁ p₂ ∧ Frames r d p₁ p₂)
        (fun e _ => l.fault? d = some e) := fun d hd p₁ h₁ hu => by
    have := Cursor.sizeOf_operand_lt hd
    have hin := contains_operand hc hd
    have hlen := length_lt_of_operand hb hd
    exact ((resolveOperand_outcome hin hlen h₁).and
      (resolveOperand_fault hin hlen h₁ hu)).imp (fun _ _ h => h) fun _ _ hf => hf.2
  rw [locate_eq]
  refine outcome_locateBy h.linked hfresh (fun raw hr => ?own) (fun _ _ _ _ => rfl)
    (fun d hr => ?negation) (fun left right hr => ?operator) fun hr e he => ?stuck
  case own =>
    refine (settleAt_fault hc h.linked).imp (fun _ _ h => h) fun e _ hf => ?_
    rw [fault?_of_operands (Cursor.operands_own hr), ownFault?]
    simpa only [given?, hr, hfresh] using hf
  case negation =>
    have hmem : d ∈ c.operands := by simp [Cursor.operands_negation hr]
    exact negation_fault hc hr h.linked hfresh (hbusy d hmem)
      (hoperand d hmem p' h.faithful (Or.inl (hready.operand d hr)))
  case operator =>
    have hlen := length_le_of_busy hb
    have hspine := ((resolveSpine_outcome hc hlen h.faithful).and
      (resolveSpine_fault hc hlen h.faithful hready.left)).imp (fun _ _ h => h) fun _ _ hf => hf.2
    exact operator_fault hc hr h.linked hfresh hready hbusy hspine hoperand
  case stuck =>
    rw [fault?_of_operands (by rw [Cursor.operands, hr]; rfl), ownFault?]
    simpa only [given?, hr] using he
termination_by (sizeOf c.node, 1)

theorem resolveOperand_fault {c : Cursor} {busy : List Path} {p : Progress} (hc : r.Contains c)
    (hb : ∀ q ∈ busy, q.length < c.path.length) (h : p.Faithful l r busy)
    (hu : p.Untouched c ∨ (p.mark c).resolved = true) :
    Outcome (l.resolveOperand c) p (fun _ p' => Frames r c p p') (fun e _ => l.fault? c = some e) := by
  rw [resolveOperand, outcome_bind, outcome_link]
  rcases hu with hu | hres
  · have hready := (ready_of_untouched (l := l) hu).setMark { p.mark c with linked := true }
    refine (resolve_fault hc (Or.inr ?_) hb (h.link hc) hready ?_).imp
      (fun _ p' h' => (frames_setMark hc _).trans h') fun _ _ hf => hf
    · rw [mark_setMark_self]
    · rw [mark_setMark_self]
      exact hu c .refl
  · rw [resolve, outcome_bind, outcome_mark, mark_setMark_self, hres, if_pos rfl, outcome_pure]
    exact frames_setMark hc _
termination_by (sizeOf c.node, 3)

theorem resolveSpine_fault {c : Cursor} {busy : List Path} {p : Progress} (hc : r.Contains c)
    (hb : ∀ q ∈ busy, q.length ≤ c.path.length) (h : p.Faithful l r busy)
    (hleft : ∀ left, c.child? "left" = some left →
      p.Untouched left ∨ (p.mark left).resolved = true ∧ l.chainFault? c = none) :
    Outcome (l.resolveSpine c) p (fun _ p' => Unchained l r c p p')
      (fun e _ => l.chainFault? c = some e) := by
  rw [resolveSpine]
  split
  · next hnone =>
    exact ⟨chainFault?_of_end (by simp [hnone]), fun _ _ _ => rfl, by simp [hnone]⟩
  · next left hchild =>
    have hinLeft : r.Contains left := hc.child hchild
    have hpath := Cursor.path_of_child? hchild
    have := Cursor.sizeOf_child?_lt hchild
    have hlen : ∀ q ∈ busy, q.length < left.path.length := fun q hq => by
      have := hb q hq
      rw [hpath, List.length_cons]
      omega
    rw [outcome_bind, outcome_mark]
    split
    · next hcond =>
      simp only [Bool.and_eq_true, Option.isNone_iff_eq_none, Bool.not_eq_true'] at hcond
      obtain ⟨⟨hraw, hunresolved⟩, hright⟩ := hcond
      rw [h.fresh left hinLeft hunresolved] at hraw
      have hu : p.Untouched left := by
        rcases hleft left hchild with hu | ⟨hres, -⟩
        · exact hu
        · rw [hunresolved] at hres
          cases hres
      have hguard : left.isNegatedGuard = false := by
        simp [Cursor.isNegatedGuard, Cursor.isIn, hpath]
      rw [chainFault?_of_link hchild hraw hright, outcome_bind, outcome_link, outcome_bind]
      have hlen' : ∀ q ∈ busy, q.length ≤ left.path.length := fun q hq => Nat.le_of_lt (hlen q hq)
      -- the chain of the left operand goes first, and behind it the operand comes next
      refine ((resolveSpine_outcome hinLeft hlen' (h.link hinLeft)).and
        (resolveSpine_fault hinLeft hlen' (h.link hinLeft) fun a ha =>
          Or.inl ((hu.child ha).setMark ha _))).imp (fun _ p₁ ⟨hspined, hchain⟩ => ?_)
        fun _ _ hf => by rw [hf.2]; rfl
      obtain ⟨hready, hfresh⟩ := hchain.ready hinLeft (hu.link hinLeft) hguard
      have hlinked := hspined.keeps.linked left hinLeft (by rw [mark_setMark_self])
      rw [hchain.quiet, Option.none_or]
      refine ((resolve_outcome hinLeft (Or.inr hlinked) hlen hspined.faithful).and
        (resolve_fault hinLeft (Or.inr hlinked) hlen hspined.faithful hready hfresh)).imp
        (fun _ p₂ ⟨hreach, hframe⟩ => ⟨?_, fun d hd hnot => ?_, fun left' hleft' => Or.inr ?_⟩)
        fun _ _ hf => hf.2
      · rw [chainFault?_of_link hchild hraw hright, hchain.quiet,
          hreach.quiet hinLeft (path_not_busy hlen)]
        rfl
      · have hnotLeft := hnot left hchild
        rw [hframe d hd hnotLeft, hchain.frames_self d hd hnotLeft]
        exact frames_setMark hinLeft _ d hd hnotLeft
      · obtain rfl : left = left' := Option.some.inj (hchild.symm.trans hleft')
        exact hreach.done
    · next hcond =>
      -- the chain ends here: the left operand has a text, is no operator, or was dealt with before
      refine ⟨?_, fun _ _ _ => rfl, fun left' hleft' => (hleft left' hleft').imp id (·.1)⟩
      rcases hleft left hchild with hu | ⟨-, hquiet⟩
      · refine chainFault?_of_end fun left' hleft' => ?_
        obtain rfl : left = left' := Option.some.inj (hchild.symm.trans hleft')
        have hunresolved := hu left .refl
        rw [h.fresh left hinLeft hunresolved, hunresolved] at hcond
        simp only [Bool.not_false, Bool.and_true, Bool.and_eq_true, Option.isNone_iff_eq_none,
          not_and, Option.not_isSome_iff_eq_none] at hcond
        by_cases hraw : left.node.placement.raw = none
        · exact Or.inr (hcond hraw)
        · exact Or.inl hraw
      · exact hquiet
termination_by (sizeOf c.node, 0)

end

end

end Locator

end SyntaxSpans
