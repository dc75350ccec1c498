import SyntaxSpans.Proofs.Faults
import SyntaxSpans.Proofs.Outcome

/-!
# What a resolution finds out

The resolver works on a table of marks, pulls operands ahead of the walk and takes whole chains of
operators at once. `Faithful` is the invariant under which none of this matters: what is not resolved
stands where it was reported, and what is resolved stands at its final place. `resolve_outcome` says
that resolving a node keeps it, whichever nodes were resolved before, that it resolves just what the
node draws on, and that it ends in a fault only if the node has no final place.

While a node is being resolved it counts as resolved but does not stand at its final place yet. Such
nodes are *busy*; they are the nodes above the current one, which is why they never get in the way.
-/

namespace SyntaxSpans

namespace Progress

theorem mark_setMark (p : Progress) (c d : Cursor) (m : Mark) :
    (p.setMark c m).mark d = if d.path = c.path then m else p.mark d := by
  by_cases h : d.path = c.path
  · simp [mark, setMark, h]
  · rw [if_neg h, mark_setMark_of_ne p m (Ne.symm h)]

/-- In one tree, changing the mark of a node changes that of no other. -/
theorem mark_update {r c d : Cursor} (hc : r.Contains c) (hd : r.Contains d) (p : Progress)
    (f : Mark → Mark) :
    (p.setMark c (f (p.mark c))).mark d = if d.path = c.path then f (p.mark d) else p.mark d := by
  rw [mark_setMark]
  split
  · next h => rw [hd.eq_of_path hc h]
  · rfl

/-- What was found out about the tree below `r` is right, apart from the nodes at the `busy` paths. -/
structure Faithful (l : Locator) (r : Cursor) (busy : List Path) (p : Progress) : Prop where
  fresh : ∀ d, r.Contains d → (p.mark d).resolved = false → (p.mark d).placement = d.node.placement
  final : ∀ d, r.Contains d → (p.mark d).resolved = true → d.path ∉ busy →
    l.final? d = some (p.mark d).placement
  closed : ∀ d, r.Contains d → (p.mark d).resolved = true → d.path ∉ busy →
    ∀ e ∈ d.operands, (p.mark e).resolved = true

/-- Neither links nor resolutions are taken back. -/
structure Keeps (r : Cursor) (p p' : Progress) : Prop where
  linked : ∀ d, r.Contains d → (p.mark d).linked = true → (p'.mark d).linked = true
  resolved : ∀ d, r.Contains d → (p.mark d).resolved = true → (p'.mark d).resolved = true

/-- Of the nodes below `r`, only those that `c` draws on get resolved. -/
def Adds (r c : Cursor) (p p' : Progress) : Prop :=
  ∀ d, r.Contains d → (p'.mark d).resolved = true → (p.mark d).resolved = true ∨ c.Draws d

/-- `c` has been resolved, and with it just what it draws on. -/
structure Reaches (l : Locator) (r : Cursor) (busy : List Path) (c : Cursor) (p p' : Progress) :
    Prop where
  faithful : p'.Faithful l r busy
  keeps : Keeps r p p'
  adds : Adds r c p p'
  done : (p'.mark c).resolved = true

/-- `c` is being resolved; that began at `p` and has come to `p'`. -/
structure Underway (l : Locator) (r : Cursor) (busy : List Path) (c : Cursor) (p p' : Progress) :
    Prop where
  faithful : p'.Faithful l r (c.path :: busy)
  keeps : Keeps r p p'
  adds : Adds r c p p'
  marked : (p'.mark c).resolved = true
  linked : c.path = [] ∨ (p'.mark c).linked = true

section
variable {l : Locator} {r c d : Cursor} {busy : List Path} {p p' p'' : Progress}

theorem Keeps.refl : Keeps r p p := ⟨fun _ _ h => h, fun _ _ h => h⟩

theorem Keeps.trans (h : Keeps r p p') (h' : Keeps r p' p'') : Keeps r p p'' :=
  ⟨fun d hd hp => h'.linked d hd (h.linked d hd hp),
    fun d hd hp => h'.resolved d hd (h.resolved d hd hp)⟩

theorem Adds.refl : Adds r c p p := fun _ _ h => Or.inl h

theorem Adds.trans (h : Adds r c p p') (h' : Adds r c p' p'') : Adds r c p p'' := by
  intro d hd hp
  rcases h' d hd hp with hp | hp
  · exact h d hd hp
  · exact Or.inr hp

theorem Adds.of_operand (hd : d ∈ c.operands) (h : Adds r d p p') : Adds r c p p' :=
  fun e he hp => (h e he hp).imp id (Cursor.Draws.head hd)

theorem contains_operand {e : Cursor} (hd : r.Contains d) (he : e ∈ d.operands) : r.Contains e := by
  obtain ⟨name, -, h⟩ := Cursor.child_of_mem_operands he
  exact hd.child h

/-- What is busy while a node is being resolved is above its operands. -/
theorem length_lt_of_operand (hb : ∀ q ∈ busy, q.length < c.path.length) (hd : d ∈ c.operands) :
    ∀ q ∈ c.path :: busy, q.length < d.path.length := by
  intro q hq
  obtain ⟨name, -, hname⟩ := Cursor.child_of_mem_operands hd
  rw [Cursor.path_of_child? hname, List.length_cons]
  rcases List.mem_cons.1 hq with rfl | hq
  · omega
  · have := hb q hq
    omega

/-- While a node is being resolved nothing below it is busy. -/
theorem length_le_of_busy (hb : ∀ q ∈ busy, q.length < c.path.length) :
    ∀ q ∈ c.path :: busy, q.length ≤ c.path.length := by
  intro q hq
  rcases List.mem_cons.1 hq with rfl | hq
  · exact Nat.le_refl _
  · exact Nat.le_of_lt (hb q hq)

theorem path_not_busy (hb : ∀ q ∈ busy, q.length < d.path.length) : d.path ∉ busy :=
  fun hmem => Nat.lt_irrefl _ (hb _ hmem)

/-- Links and records do not matter to what was found out. -/
theorem Faithful.of_same (h : p.Faithful l r busy)
    (hsame : ∀ d, r.Contains d → (p'.mark d).placement = (p.mark d).placement ∧
      (p'.mark d).resolved = (p.mark d).resolved) : p'.Faithful l r busy := by
  constructor
  · intro d hd hr
    rw [(hsame d hd).1]
    exact h.fresh d hd ((hsame d hd).2 ▸ hr)
  · intro d hd hr hb
    rw [(hsame d hd).1]
    exact h.final d hd ((hsame d hd).2 ▸ hr) hb
  · intro d hd hr hb e he
    rw [(hsame e (contains_operand hd he)).2]
    exact h.closed d hd ((hsame d hd).2 ▸ hr) hb e he

theorem Faithful.link (hc : r.Contains c) (h : p.Faithful l r busy) :
    (p.setMark c { p.mark c with linked := true }).Faithful l r busy := by
  refine h.of_same fun d hd => ?_
  rw [mark_update hc hd p fun m => { m with linked := true }]
  split <;> exact ⟨rfl, rfl⟩

theorem Faithful.markResolved (hc : r.Contains c) (h : p.Faithful l r busy) :
    (p.setMark c { p.mark c with resolved := true }).Faithful l r (c.path :: busy) := by
  have hmark : ∀ d, r.Contains d → (p.setMark c { p.mark c with resolved := true }).mark d =
      if d.path = c.path then { p.mark d with resolved := true } else p.mark d :=
    fun d hd => mark_update hc hd p fun m => { m with resolved := true }
  constructor
  · intro d hd hr
    rw [hmark d hd] at hr ⊢
    split at hr
    · cases hr
    · next hne => rw [if_neg hne]; exact h.fresh d hd hr
  · intro d hd hr hb
    obtain ⟨hne, hb⟩ := not_or.1 (mt List.mem_cons.2 hb)
    rw [hmark d hd, if_neg hne] at hr ⊢
    exact h.final d hd hr hb
  · intro d hd hr hb e he
    obtain ⟨hne, hb⟩ := not_or.1 (mt List.mem_cons.2 hb)
    rw [hmark d hd, if_neg hne] at hr
    rw [hmark e (contains_operand hd he)]
    split
    · rfl
    · exact h.closed d hd hr hb e he

/-- A busy node may be moved about. -/
theorem Faithful.place (hc : r.Contains c) (hmarked : (p.mark c).resolved = true) (q : Placement)
    (h : p.Faithful l r (c.path :: busy)) :
    (p.setMark c { p.mark c with placement := q }).Faithful l r (c.path :: busy) := by
  have hmark : ∀ d, r.Contains d → (p.setMark c { p.mark c with placement := q }).mark d =
      if d.path = c.path then { p.mark d with placement := q } else p.mark d :=
    fun d hd => mark_update hc hd p fun m => { m with placement := q }
  have hres : ∀ d, r.Contains d →
      ((p.setMark c { p.mark c with placement := q }).mark d).resolved = (p.mark d).resolved :=
    fun d hd => by rw [hmark d hd]; split <;> rfl
  constructor
  · intro d hd hr
    rw [hres d hd] at hr
    have hne : d.path ≠ c.path := by
      intro heq
      rw [hd.eq_of_path hc heq, hmarked] at hr
      cases hr
    rw [hmark d hd, if_neg hne]
    exact h.fresh d hd hr
  · intro d hd hr hb
    rw [hres d hd] at hr
    rw [hmark d hd, if_neg fun heq : d.path = c.path => hb (by simp [heq])]
    exact h.final d hd hr hb
  · intro d hd hr hb e he
    rw [hres d hd] at hr
    rw [hres e (contains_operand hd he)]
    exact h.closed d hd hr hb e he

theorem keeps_update (hc : r.Contains c) {f : Mark → Mark}
    (hlinked : ∀ m, m.linked = true → (f m).linked = true)
    (hresolved : ∀ m, m.resolved = true → (f m).resolved = true) :
    Keeps r p (p.setMark c (f (p.mark c))) := by
  constructor
  · intro d hd h
    rw [mark_update hc hd p f]
    split
    · exact hlinked _ h
    · exact h
  · intro d hd h
    rw [mark_update hc hd p f]
    split
    · exact hresolved _ h
    · exact h

theorem adds_update (hc : r.Contains c) {f : Mark → Mark}
    (hresolved : ∀ m, (f m).resolved = true → m.resolved = true) :
    Adds r d p (p.setMark c (f (p.mark c))) := by
  intro e he h
  rw [mark_update hc he p f] at h
  split at h
  · exact Or.inl (hresolved _ h)
  · exact Or.inl h

theorem keeps_link (hc : r.Contains c) : Keeps r p (p.setMark c { p.mark c with linked := true }) :=
  keeps_update hc (f := fun m => { m with linked := true }) (fun _ _ => rfl) fun _ h => h

theorem adds_link (hc : r.Contains c) :
    Adds r d p (p.setMark c { p.mark c with linked := true }) :=
  adds_update hc (f := fun m => { m with linked := true }) fun _ h => h

theorem Underway.start (hc : r.Contains c) (hl : c.path = [] ∨ (p.mark c).linked = true)
    (h : p.Faithful l r busy) :
    Underway l r busy c p (p.setMark c { p.mark c with resolved := true }) := by
  refine ⟨h.markResolved hc, ?_, fun d hd hp => ?_, ?_, ?_⟩
  · exact keeps_update hc (f := fun m => { m with resolved := true }) (fun _ h => h) fun _ _ => rfl
  · by_cases heq : d.path = c.path
    · rw [hd.eq_of_path hc heq]
      exact Or.inr .refl
    · rw [mark_setMark, if_neg heq] at hp
      exact Or.inl hp
  · rw [mark_setMark_self]
  · rw [mark_setMark_self]
    exact hl

theorem Underway.place (hc : r.Contains c) (h : Underway l r busy c p p') (q : Placement) :
    Underway l r busy c p (p'.setMark c { p'.mark c with placement := q }) := by
  refine ⟨h.faithful.place hc h.marked q, h.keeps.trans ?_, h.adds.trans ?_, ?_, ?_⟩
  · exact keeps_update hc (f := fun m => { m with placement := q }) (fun _ h => h) fun _ h => h
  · exact adds_update hc (f := fun m => { m with placement := q }) fun _ h => h
  · rw [mark_setMark_self]
    exact h.marked
  · rw [mark_setMark_self]
    exact h.linked

/-- Resolving an operand goes on with the node that needs it. -/
theorem Underway.operand (hc : r.Contains c) (h : Underway l r busy c p p')
    (h' : Reaches l r (c.path :: busy) d p' p'') (hadd : Adds r c p' p'') :
    Underway l r busy c p p'' :=
  ⟨h'.faithful, h.keeps.trans h'.keeps, h.adds.trans hadd, h'.keeps.resolved c hc h.marked,
    h.linked.imp id (h'.keeps.linked c hc)⟩

/-- A node is no longer busy when it stands at its final place, and its operands at theirs. -/
theorem Underway.finish (hc : r.Contains c) (h : Underway l r busy c p p')
    (hops : ∀ d ∈ c.operands, (p'.mark d).resolved = true)
    (hfinal : l.final? c = some (p'.mark c).placement) : Reaches l r busy c p p' := by
  have hfaithful : p'.Faithful l r busy := by
    constructor
    · exact h.faithful.fresh
    · intro d hd hr hb
      by_cases heq : d.path = c.path
      · rw [hd.eq_of_path hc heq]; exact hfinal
      · exact h.faithful.final d hd hr (by simp [heq, hb])
    · intro d hd hr hb e he
      by_cases heq : d.path = c.path
      · exact hops e (hd.eq_of_path hc heq ▸ he)
      · exact h.faithful.closed d hd hr (by simp [heq, hb]) e he
  exact ⟨hfaithful, h.keeps, h.adds, h.marked⟩

end

end Progress

/-- What is recorded at a node that stays without text. -/
def Cursor.skipped (c : Cursor) : Record :=
  if c.isImplicit then .skippedConcatenation else .skippedCondition c.node.placement.line

namespace Locator

open Progress

section
variable {l : Locator} {r c d : Cursor} {busy : List Path} {p p' : Progress}

/-- A node that is linked, or is the root, is held by its parent as its path says. -/
theorem held_eq {m : Mark} (h : c.path = [] ∨ m.linked = true) (name : String) :
    (m.linked && c.isIn name) = c.isIn name := by
  rcases h with h | h
  · simp [Cursor.isIn, h]
  · simp [h]

theorem reaches_record {busy : List Path} {p' : Progress} (h : Reaches l r busy c p p')
    (records : List Record) : Reaches l r busy c p (p'.record records) :=
  ⟨h.faithful.of_same fun _ _ => ⟨rfl, rfl⟩, ⟨h.keeps.linked, h.keeps.resolved⟩, h.adds, h.done⟩

/-- Settling the text of a busy node is the last step of its resolution. -/
theorem settleAt_outcome {raw : Text} (hc : r.Contains c) (h : Underway l r busy c p p')
    (hops : ∀ d ∈ c.operands, (p'.mark d).resolved = true)
    (hfinal : l.final? c = l.settled? c.role (raw, (p'.mark c).placement.toAnchor)) :
    Outcome (l.settleAt c raw) p' (fun _ p'' => Reaches l r busy c p p'')
      (fun _ _ => l.final? c = none) := by
  rw [outcome_settleAt, held_eq h.linked]
  have hs : l.settle ⟨c.kind, c.isIn "step"⟩ raw (p'.mark c).placement.toAnchor =
      l.settle c.role raw (p'.mark c).placement.toAnchor := rfl
  rw [settled?, ← hs] at hfinal
  simp only
  split
  · next fault hf => simpa [hf] using hfinal
  · next hf =>
    simp only [hf, Option.isNone_none, if_true] at hfinal
    refine reaches_record (Underway.finish hc (h.place hc _) (fun d hd => ?_) ?_) _
    · rw [mark_setMark]
      split
      · exact h.marked
      · exact hops d hd
    · rw [mark_setMark_self]; exact hfinal

/-- The operators without text that `c` begins with have been resolved. Where the left operand ends up
with a span, they are all among the nodes it draws on. -/
structure SpineReaches (l : Locator) (r : Cursor) (busy : List Path) (c : Cursor) (p p' : Progress) :
    Prop where
  faithful : p'.Faithful l r busy
  keeps : Keeps r p p'
  adds : (∀ left, c.child? "left" = some left → l.Spanned left) → ∀ d, r.Contains d →
    (p'.mark d).resolved = true →
      (p.mark d).resolved = true ∨ ∃ left, c.child? "left" = some left ∧ left.Draws d

/-- Where the left operand has a span, the chain resolves nothing that the operator does not draw on. -/
theorem SpineReaches.adds_operator {left right : Cursor} (h : SpineReaches l r busy c p p')
    (hr : c.rule = .operator left right) (hspan : l.Spanned left) : Adds r c p p' := by
  intro d hd hres
  rcases h.adds (spanned_left hr hspan) d hd hres with hres | ⟨left', hleft', hdraw⟩
  · exact Or.inl hres
  · obtain ⟨hchild, -⟩ := Cursor.children_of_operator hr
    obtain rfl : left' = left := Option.some.inj (hleft'.symm.trans hchild)
    exact Or.inr (.head (by simp [Cursor.operands_operator hr]) hdraw)

/-! ### What is done at a node

Which steps resolve an operand, and which come before the operands of an operator, does not matter to
what is done at the node itself. `locateBy` leaves both open. -/

def locateNegation (l : Locator) (operand : Cursor → Resolving Unit) (c d : Cursor) :
    Resolving Unit := do
  operand d
  let q ← Resolving.placement d
  match q.raw with
  | none => gap c .operandWithoutText
  | some raw =>
    Resolving.place c q
    l.settleAt c raw

/-- Where its operands stand, an operator reaches from the left one to the right one. -/
def spanOperands (l : Locator) (c left right : Cursor) : Resolving Unit := do
  let p ← Resolving.placement left
  let q ← Resolving.placement right
  match p.span, q.span with
  | some first, some last =>
    let span : Span := ⟨first.start, last.stop⟩
    let raw := span.read l.source
    Resolving.place c { p with raw := some raw, span := some span }
    l.settleAt c raw
  | _, _ => gap c .operandWithoutSpan

/-- An operator comes after its chain and its operands. -/
def locateOperator (l : Locator) (chain : Resolving Unit) (operand : Cursor → Resolving Unit)
    (c left right : Cursor) : Resolving Unit := do
  chain
  operand left
  operand right
  l.spanOperands c left right

def locateBy (l : Locator) (chain : Resolving Unit) (operand : Cursor → Resolving Unit) (c : Cursor) :
    Resolving Unit := do
  let p ← Resolving.placement c
  match p.raw with
  | some raw => l.settleAt c raw
  | none =>
    if p.span.isNone && c.kind == "ConcatOp" then Resolving.record .skippedConcatenation
    else if ← heldBy c "While" "condition" then Resolving.record (.skippedCondition p.line)
    else if c.kind == "LogicalNotOp" && (← heldBy c "Conditional" "condition") then
      match c.child? "expression" with
      | none => throw (.missingOperand "expression")
      | some d => l.locateNegation operand c d
    else
      match c.child? "left", c.child? "right" with
      | some left, some right => l.locateOperator chain operand c left right
      | _, _ => gap c .noText

theorem locate_eq (l : Locator) (c : Cursor) :
    l.locate c = l.locateBy (l.resolveSpine c) l.resolveOperand c := by
  rw [locate, locateBy]
  refine bind_congr fun p => ?_
  cases p.raw with
  | some raw => rfl
  | none =>
    refine ite_congr rfl (fun _ => rfl) fun _ => bind_congr fun _ => ?_
    refine ite_congr rfl (fun _ => rfl) fun _ => bind_congr fun _ => ?_
    refine ite_congr rfl (fun _ => ?_) fun _ => ?_
    · split
      · next hd => simp only [hd]
      · next hd =>
        simp only [hd]
        rfl
    · split
      · next hl hr =>
        simp only [hl, hr]
        rfl
      · next hnone =>
        split
        · next hl hr => exact (hnone _ _ hl hr).elim
        · rfl

def once (c : Cursor) (step : Resolving Unit) : Resolving Unit := do
  if (← Resolving.mark c).resolved then pure ()
  else
    Resolving.markResolved c
    step

theorem resolve_eq (l : Locator) (c : Cursor) : l.resolve c = once c (l.locate c) := by
  rw [resolve]
  rfl

/-- **What is done at a node** is what its rule says. -/
theorem outcome_locateBy {chain : Resolving Unit} {operand : Cursor → Resolving Unit}
    {post : Unit → Progress → Prop} {failed : Fault → Progress → Prop}
    (hl : c.path = [] ∨ (p.mark c).linked = true)
    (hfresh : (p.mark c).placement = c.node.placement)
    (hown : ∀ raw, c.rule = .own raw → Outcome (l.settleAt c raw) p post failed)
    (hbare : c.rule = .bare → post () (p.record [c.skipped]))
    (hnegation : ∀ d, c.rule = .negation d →
      Outcome (l.locateNegation operand c d) p post failed)
    (hoperator : ∀ left right, c.rule = .operator left right →
      Outcome (l.locateOperator chain operand c left right) p post failed)
    (hstuck : c.rule = .stuck → ∀ e, c.unplaced? = some e → failed e p) :
    Outcome (l.locateBy chain operand c) p post failed := by
  -- the tests come in the order of the rule: a reported text, the two exceptions, a negated
  -- condition, two operands
  rw [locateBy, outcome_bind, outcome_placement, hfresh]
  split
  · next raw hraw => exact hown raw (Cursor.rule_own.2 hraw)
  · next hraw =>
    split
    · next hi =>
      have hi : c.isImplicit = true := hi
      have h := hbare (Cursor.rule_bare.2 ⟨hraw, Or.inl hi⟩)
      rwa [Cursor.skipped, hi] at h
    · next hi =>
      have hi : c.isImplicit = false := Bool.eq_false_iff.2 hi
      rw [outcome_bind, outcome_heldBy, held_eq hl]
      split
      · next hg =>
        have h := hbare (Cursor.rule_bare.2 ⟨hraw, Or.inr hg⟩)
        rwa [Cursor.skipped, hi] at h
      · next hg =>
        have hnot : (c.isImplicit || c.isLoopGuard) = false :=
          Bool.or_eq_false_iff.2 ⟨hi, Bool.eq_false_iff.2 hg⟩
        rw [outcome_bind, outcome_heldBy, held_eq hl]
        split
        · next hn =>
          have hn : c.isNegatedGuard = true := hn
          split
          · next hnone =>
            have hr : c.rule = .stuck := by simp [Cursor.rule, hraw, hnot, hn, hnone]
            exact hstuck hr _ (by simp [Cursor.unplaced?, hr, hn])
          · next operand hchild =>
            exact hnegation operand (by simp [Cursor.rule, hraw, hnot, hn, hchild])
        · next hn =>
          have hn : c.isNegatedGuard = false := Bool.eq_false_iff.2 hn
          split
          · next left right hleft hright =>
            exact hoperator left right (by simp [Cursor.rule, hraw, hnot, hn, hleft, hright])
          · next hnone =>
            have hr : c.rule = .stuck := by
              simp only [Cursor.rule, hraw, hnot, hn, Bool.false_eq_true, if_false]
            rw [outcome_gap, hfresh]
            exact hstuck hr _ (by simp [Cursor.unplaced?, hr, hn, Cursor.gapFault])

section
variable {chain : Resolving Unit} {operand : Cursor → Resolving Unit}

theorem negation_outcome (hc : r.Contains c) (hr : c.rule = .negation d)
    (h : Underway l r busy c p p') (hbusy : d.path ∉ c.path :: busy)
    (hoperand : Outcome (operand d) p' (fun _ p'' => Reaches l r (c.path :: busy) d p' p'')
      (fun _ _ => l.final? d = none)) :
    Outcome (l.locateNegation operand c d) p' (fun _ p'' => Reaches l r busy c p p'')
      (fun _ _ => l.final? c = none) := by
  have hops := Cursor.operands_negation hr
  have hd : d ∈ c.operands := by simp [hops]
  rw [locateNegation, outcome_bind]
  refine hoperand.imp (fun _ p₁ h₁ => ?_) fun _ _ hf => by rw [final?_negation hr, hf]; rfl
  have hunder := h.operand hc h₁ (h₁.adds.of_operand hd)
  have hplace := h₁.faithful.final d (contains_operand hc hd) h₁.done hbusy
  rw [outcome_bind, outcome_placement]
  split
  · next hraw =>
    rw [outcome_gap, final?_negation hr, hplace]
    simp [Placement.text?, hraw]
  · next raw hraw =>
    rw [outcome_bind, outcome_place]
    refine settleAt_outcome hc (hunder.place hc _) (fun e he => ?_) ?_
    · obtain rfl : e = d := by simpa [hops] using he
      rw [mark_setMark]
      split
      · exact hunder.marked
      · exact h₁.done
    · rw [final?_negation hr, hplace, mark_setMark_self]
      simp [Placement.text?, hraw]

theorem spanOperands_outcome {left right : Cursor} (hc : r.Contains c)
    (hr : c.rule = .operator left right) (h : l.Spanned left → Underway l r busy c p p')
    (hp : l.final? left = some (p'.mark left).placement)
    (hq : l.final? right = some (p'.mark right).placement)
    (hdone : ∀ d ∈ c.operands, (p'.mark d).resolved = true) :
    Outcome (l.spanOperands c left right) p' (fun _ p'' => Reaches l r busy c p p'')
      (fun _ _ => l.final? c = none) := by
  have hfinal : l.final? c =
      (l.between? (p'.mark left).placement (p'.mark right).placement).bind (l.settled? c.role) := by
    rw [final?_operator hr, hp, hq]; rfl
  rw [spanOperands, outcome_bind, outcome_placement, outcome_bind, outcome_placement]
  split
  · next first last hfirst hlast =>
    have hunder := h ⟨_, first, hp, hfirst⟩
    rw [outcome_bind, outcome_place]
    refine settleAt_outcome hc (hunder.place hc _) (fun d hd => ?_) ?_
    · rw [mark_setMark]
      split
      · exact hunder.marked
      · exact hdone d hd
    · rw [hfinal, mark_setMark_self, between?, hfirst, hlast]
      rfl
  · next hnone =>
    rw [outcome_gap, hfinal]
    unfold between?
    split
    · next first last hfirst hlast => exact absurd hlast (hnone first last hfirst)
    · rfl

theorem operator_outcome {left right : Cursor} (hc : r.Contains c)
    (hr : c.rule = .operator left right) (h : Underway l r busy c p p')
    (hbusy : ∀ d ∈ c.operands, d.path ∉ c.path :: busy)
    (hchain : Outcome chain p' (fun _ p'' => SpineReaches l r (c.path :: busy) c p' p'')
      (fun _ _ => ¬ ∀ left, c.child? "left" = some left → l.Spanned left))
    (hoperand : ∀ d ∈ c.operands, ∀ p₁ : Progress, p₁.Faithful l r (c.path :: busy) →
      Outcome (operand d) p₁ (fun _ p₂ => Reaches l r (c.path :: busy) d p₁ p₂)
        (fun _ _ => l.final? d = none)) :
    Outcome (l.locateOperator chain operand c left right) p' (fun _ p'' => Reaches l r busy c p p'')
      (fun _ _ => l.final? c = none) := by
  have hops := Cursor.operands_operator hr
  have hl : left ∈ c.operands := by simp [hops]
  have hright : right ∈ c.operands := by simp [hops]
  have hfailed : (¬ ∀ d, c.child? "left" = some d → l.Spanned d) → l.final? c = none :=
    fun hf => Classical.byContradiction fun hne => hf (spanned_left hr (spanned_of_operator hr hne).1)
  rw [locateOperator, outcome_bind]
  refine hchain.imp (fun _ p₁ h₁ => ?_) fun _ _ hf => hfailed hf
  rw [outcome_bind]
  refine (hoperand left hl p₁ h₁.faithful).imp (fun _ p₂ h₂ => ?_)
    fun _ _ hf => by rw [final?_operator hr, hf]; rfl
  rw [outcome_bind]
  refine (hoperand right hright p₂ h₂.faithful).imp (fun _ p₃ h₃ => ?_)
    fun _ _ hf => by rw [final?_operator hr, hf]; cases l.final? left <;> rfl
  have hleftDone := h₃.keeps.resolved left (contains_operand hc hl) h₂.done
  have hkeep : Keeps r p' p₃ := (h₁.keeps.trans h₂.keeps).trans h₃.keeps
  refine spanOperands_outcome hc hr (fun hspan => ?_) ?_ ?_ fun d hd => ?_
  -- chain and operands have resolved nothing but what the operator draws on
  · have hadd : Adds r c p' p₃ := ((h₁.adds_operator hr hspan).trans (h₂.adds.of_operand hl)).trans
      (h₃.adds.of_operand hright)
    exact ⟨h₃.faithful, h.keeps.trans hkeep, h.adds.trans hadd, hkeep.resolved c hc h.marked,
      h.linked.imp id (hkeep.linked c hc)⟩
  · exact h₃.faithful.final left (contains_operand hc hl) hleftDone (hbusy left hl)
  · exact h₃.faithful.final right (contains_operand hc hright) h₃.done (hbusy right hright)
  · rw [hops] at hd
    rcases List.mem_cons.1 hd with rfl | hd
    · exact hleftDone
    · exact List.mem_singleton.1 hd ▸ h₃.done

/-- Finding the place of a node keeps what was found out right if its chain and its operands do. -/
theorem locateBy_outcome (hc : r.Contains c) (hb : ∀ q ∈ busy, q.length < c.path.length)
    (h : Underway l r busy c p p') (hfresh : (p'.mark c).placement = c.node.placement)
    (hchain : Outcome chain p' (fun _ p'' => SpineReaches l r (c.path :: busy) c p' p'')
      (fun _ _ => ¬ ∀ left, c.child? "left" = some left → l.Spanned left))
    (hoperand : ∀ d ∈ c.operands, ∀ p₁ : Progress, p₁.Faithful l r (c.path :: busy) →
      Outcome (operand d) p₁ (fun _ p₂ => Reaches l r (c.path :: busy) d p₁ p₂)
        (fun _ _ => l.final? d = none)) :
    Outcome (l.locateBy chain operand c) p' (fun _ p'' => Reaches l r busy c p p'')
      (fun _ _ => l.final? c = none) := by
  have hbusy : ∀ d ∈ c.operands, d.path ∉ c.path :: busy := fun d hd =>
    path_not_busy (length_lt_of_operand hb hd)
  refine outcome_locateBy h.linked hfresh (fun raw hr => ?own) (fun hr => ?bare)
    (fun d hr => ?negation) (fun left right hr => ?operator) fun hr _ _ => final?_stuck hr
  case own =>
    refine settleAt_outcome hc h (by simp [Cursor.operands_own hr]) ?_
    rw [final?_own hr, hfresh]
  case bare =>
    refine reaches_record (h.finish hc (by simp [Cursor.operands_bare hr]) ?_) _
    rw [final?_bare hr, hfresh]
  case negation =>
    have hmem : d ∈ c.operands := by simp [Cursor.operands_negation hr]
    exact negation_outcome hc hr h (hbusy d hmem) (hoperand d hmem p' h.faithful)
  case operator => exact operator_outcome hc hr h hbusy hchain hoperand

/-- A node that has not been resolved yet is marked first. -/
theorem once_outcome {step : Resolving Unit} (hc : r.Contains c)
    (hl : c.path = [] ∨ (p.mark c).linked = true) (h : p.Faithful l r busy)
    (hstep : ∀ p' : Progress, Underway l r busy c p p' →
      (p'.mark c).placement = c.node.placement →
      Outcome step p' (fun _ p'' => Reaches l r busy c p p'') (fun _ _ => l.final? c = none)) :
    Outcome (once c step) p (fun _ p' => Reaches l r busy c p p') (fun _ _ => l.final? c = none) := by
  rw [once, outcome_bind, outcome_mark]
  split
  · next hres => exact ⟨h, .refl, .refl, hres⟩
  · next hres =>
    rw [outcome_bind, outcome_markResolved]
    refine hstep _ (.start hc hl h) ?_
    rw [mark_setMark_self]
    exact h.fresh c hc (by simpa using hres)

end

mutual

/-- **Resolving a node** keeps what was found out right, resolves just what the node draws on, and
faults only if the node has no final place. -/
theorem resolve_outcome {c : Cursor} {busy : List Path} {p : Progress} (hc : r.Contains c)
    (hl : c.path = [] ∨ (p.mark c).linked = true) (hb : ∀ q ∈ busy, q.length < c.path.length)
    (h : p.Faithful l r busy) :
    Outcome (l.resolve c) p (fun _ p' => Reaches l r busy c p p') (fun _ _ => l.final? c = none) := by
  rw [resolve_eq]
  exact once_outcome hc hl h fun p' h' hfresh => locate_outcome hc hb h' hfresh
termination_by (sizeOf c.node, 2)

theorem locate_outcome {c : Cursor} {busy : List Path} {p p' : Progress} (hc : r.Contains c)
    (hb : ∀ q ∈ busy, q.length < c.path.length) (h : Underway l r busy c p p')
    (hfresh : (p'.mark c).placement = c.node.placement) :
    Outcome (l.locate c) p' (fun _ p'' => Reaches l r busy c p p'')
      (fun _ _ => l.final? c = none) := by
  rw [locate_eq]
  refine locateBy_outcome hc hb h hfresh
    (resolveSpine_outcome hc (length_le_of_busy hb) h.faithful) fun d hd p₁ h₁ => ?_
  have := Cursor.sizeOf_operand_lt hd
  exact resolveOperand_outcome (contains_operand hc hd) (length_lt_of_operand hb hd) h₁
termination_by (sizeOf c.node, 1)

theorem resolveOperand_outcome {c : Cursor} {busy : List Path} {p : Progress} (hc : r.Contains c)
    (hb : ∀ q ∈ busy, q.length < c.path.length) (h : p.Faithful l r busy) :
    Outcome (l.resolveOperand c) p (fun _ p' => Reaches l r busy c p p')
      (fun _ _ => l.final? c = none) := by
  rw [resolveOperand, outcome_bind, outcome_link]
  refine (resolve_outcome hc (Or.inr ?_) hb (h.link hc)).imp (fun _ p' h' => ?_) fun _ _ hf => hf
  · rw [mark_setMark_self]
  · exact ⟨h'.faithful, (keeps_link hc).trans h'.keeps, (adds_link hc).trans h'.adds, h'.done⟩
termination_by (sizeOf c.node, 3)

theorem resolveSpine_outcome {c : Cursor} {busy : List Path} {p : Progress} (hc : r.Contains c)
    (hb : ∀ q ∈ busy, q.length ≤ c.path.length) (h : p.Faithful l r busy) :
    Outcome (l.resolveSpine c) p (fun _ p' => SpineReaches l r busy c p p')
      (fun _ _ => ¬ ∀ left, c.child? "left" = some left → l.Spanned left) := by
  rw [resolveSpine]
  split
  · exact ⟨h, .refl, fun _ _ _ hd => Or.inl hd⟩
  · next left hchild =>
    have hleft : r.Contains left := hc.child hchild
    have hpath := Cursor.path_of_child? hchild
    have := Cursor.sizeOf_child?_lt hchild
    rw [outcome_bind, outcome_mark]
    split
    · next hcond =>
      simp only [Bool.and_eq_true, Option.isNone_iff_eq_none, Bool.not_eq_true'] at hcond
      obtain ⟨⟨hraw, hunresolved⟩, -⟩ := hcond
      rw [h.fresh left hleft hunresolved] at hraw
      -- a chain that goes on goes on through operators only
      have hnext : (∀ left', c.child? "left" = some left' → l.Spanned left') →
          ∃ a b, left.rule = .operator a b ∧ l.Spanned a :=
        fun hs => operator_of_spanned hraw (by simp [Cursor.isIn, hpath]) (hs left hchild)
      have hinner : (∀ left', c.child? "left" = some left' → l.Spanned left') →
          ∀ a, left.child? "left" = some a → l.Spanned a ∧ a ∈ left.operands := by
        intro hs a ha
        obtain ⟨a', b, hr, hspan⟩ := hnext hs
        obtain rfl : a = a' := Option.some.inj (ha.symm.trans (Cursor.children_of_operator hr).1)
        exact ⟨hspan, by simp [Cursor.operands_operator hr]⟩
      rw [outcome_bind, outcome_link, outcome_bind]
      refine (resolveSpine_outcome hleft (fun q hq => ?_) (h.link hleft)).imp (fun _ p₁ h₁ => ?_)
        fun _ _ hf hs => hf fun a ha => (hinner hs a ha).1
      · rw [hpath, List.length_cons]
        have := hb q hq
        omega
      have hkeep := (keeps_link hleft).trans h₁.keeps
      refine (resolve_outcome hleft (Or.inr (h₁.keeps.linked left hleft ?_)) (fun q hq => ?_)
        h₁.faithful).imp (fun _ p₂ h₂ => ⟨h₂.faithful, hkeep.trans h₂.keeps, fun hs d hd hres => ?_⟩)
        fun _ _ hf hs => ?_
      · rw [mark_setMark_self]
      · rw [hpath, List.length_cons]
        have := hb q hq
        omega
      · rcases h₂.adds d hd hres with hres | hdraw
        · rcases h₁.adds (fun a ha => (hinner hs a ha).1) d hd hres with hres | ⟨a, ha, hdraw⟩
          · exact (adds_link (d := left) hleft d hd hres).imp id fun h => ⟨left, hchild, h⟩
          · exact Or.inr ⟨left, hchild, .head (hinner hs a ha).2 hdraw⟩
        · exact Or.inr ⟨left, hchild, hdraw⟩
      · obtain ⟨q, span, hq, -⟩ := hs left hchild
        rw [hf] at hq
        cases hq
    · exact ⟨h, .refl, fun _ _ _ hd => Or.inl hd⟩
termination_by (sizeOf c.node, 0)

end

end

end Locator

end SyntaxSpans
