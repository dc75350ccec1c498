import SyntaxSpans.Proofs.Changes
import SyntaxSpans.Proofs.Placed

/-!
# Resolving without chains

The resolver takes a chain of operators from the innermost one outwards before it comes to the operands.
That is a matter of how deep it descends, and of nothing else. `resolvePlain` is the resolver without that
step, and both do the same: they come to their end together (`Lockstep`), and then they have placed,
linked and resolved the same nodes and made the same records in the same order (`Progress.Alike`). The
faults of two walks that fail may differ.

Neither is compared to the other step by step. `resolve_outcome` and `resolve_changes` say of the one, and
`resolvePlain_outcome` and `resolvePlain_changes` of the other, what a resolution does, and it is the same.
-/

namespace SyntaxSpans

/-! ## Two steps side by side -/

/-- Two steps both end in a fault, or both end in the same answer, in states that are related. -/
def Lockstep {σ α : Type} (x y : EStateM Fault σ α) (s t : σ) (rel : σ → σ → Prop) : Prop :=
  match x s, y t with
  | .ok a s', .ok b t' => a = b ∧ rel s' t'
  | .error _ _, .error _ _ => True
  | .ok _ _, .error _ _ | .error _ _, .ok _ _ => False

section
variable {σ α β : Type} {x y : EStateM Fault σ α} {s t : σ} {rel rel' : σ → σ → Prop}

theorem Lockstep.bind {f g : α → EStateM Fault σ β} (h : Lockstep x y s t rel)
    (hf : ∀ a s' t', rel s' t' → Lockstep (f a) (g a) s' t' rel') :
    Lockstep (x >>= f) (y >>= g) s t rel' := by
  simp only [Lockstep, Bind.bind, EStateM.bind] at h ⊢
  cases hx : x s with
  | error e s' =>
    rw [hx] at h
    cases hy : y t with
    | error e' t' => trivial
    | ok b t' =>
      rw [hy] at h
      exact h.elim
  | ok a s' =>
    rw [hx] at h
    cases hy : y t with
    | error e' t' =>
      rw [hy] at h
      exact h.elim
    | ok b t' =>
      rw [hy] at h
      obtain ⟨rfl, h⟩ := h
      exact hf a s' t' h

theorem Lockstep.imp (h : Lockstep x y s t rel) (hrel : ∀ s' t', rel s' t' → rel' s' t') :
    Lockstep x y s t rel' := by
  unfold Lockstep at h ⊢
  split
  · next hx hy =>
    rw [hx, hy] at h
    exact ⟨h.1, hrel _ _ h.2⟩
  · trivial
  all_goals
    next hx hy =>
    rw [hx, hy] at h
    exact h

/-- Two steps that end in faults under the same condition go in lockstep. -/
theorem lockstep_of_outcome {post post' : α → σ → Prop} (failed : Prop)
    (hx : Outcome x s (fun a s' => post a s' ∧ ¬ failed) fun _ _ => failed)
    (hy : Outcome y t (fun b t' => post' b t' ∧ ¬ failed) fun _ _ => failed)
    (h : ∀ a s' b t', post a s' → post' b t' → a = b ∧ rel s' t') : Lockstep x y s t rel := by
  unfold Outcome at hx hy
  unfold Lockstep
  cases hxs : x s with
  | ok a s' =>
    rw [hxs] at hx
    cases hyt : y t with
    | ok b t' =>
      rw [hyt] at hy
      exact h a s' b t' hx.1 hy.1
    | error e t' =>
      rw [hyt] at hy
      exact hx.2 hy
  | error e s' =>
    rw [hxs] at hx
    cases hyt : y t with
    | ok b t' =>
      rw [hyt] at hy
      exact hy.2 hx
    | error e' t' => trivial

/-- What holds between two items goes along a list of steps. -/
theorem Lockstep.forM {f g : β → EStateM Fault σ PUnit} {items : List β}
    (inv : List β → σ → σ → Prop)
    (hstep : ∀ before b after s t, items = before ++ b :: after → inv before s t →
      Lockstep (f b) (g b) s t (inv (before ++ [b]))) (h0 : inv [] s t) :
    Lockstep (items.forM f) (items.forM g) s t (inv items) := by
  suffices go : ∀ (after before : List β) (s t : σ), items = before ++ after → inv before s t →
      Lockstep (after.forM f) (after.forM g) s t (inv items) from go items [] s t rfl h0
  intro after
  induction after with
  | nil =>
    intro before s t hi h
    rw [List.append_nil] at hi
    subst hi
    exact ⟨rfl, h⟩
  | cons b rest ih =>
    intro before s t hi h
    simp only [List.forM_eq_forM, List.forM_cons] at ih ⊢
    refine (hstep before b rest s t hi h).bind fun _ s' t' h' => ?_
    exact ih (before ++ [b]) s' t' (by simp [hi]) h'

end

/-! ## The plain resolver -/

namespace Locator

open Resolving

mutual

def resolvePlain (l : Locator) (c : Cursor) : Resolving Unit := do
  if (← mark c).resolved then pure ()
  else
    markResolved c
    locatePlain l c
termination_by (sizeOf c.node, 2)

def locatePlain (l : Locator) (c : Cursor) : Resolving Unit := do
  let p ← placement c
  match p.raw with
  | some raw => settleAt l c raw
  | none =>
    if p.span.isNone && c.kind == "ConcatOp" then record .skippedConcatenation
    else if ← heldBy c "While" "condition" then record (.skippedCondition p.line)
    else if c.kind == "LogicalNotOp" && (← heldBy c "Conditional" "condition") then
      match _h : c.child? "expression" with
      | none => throw (.missingOperand "expression")
      | some operand =>
        resolveOperandPlain l operand
        let q ← placement operand
        match q.raw with
        | none => gap c .operandWithoutText
        | some raw =>
          place c q
          settleAt l c raw
    else
      match _hl : c.child? "left", _hr : c.child? "right" with
      | some left, some right =>
        resolveOperandPlain l left
        resolveOperandPlain l right
        let p ← placement left
        let q ← placement right
        match p.span, q.span with
        | some first, some last =>
          let span : Span := ⟨first.start, last.stop⟩
          let raw := span.read l.source
          place c { p with raw := some raw, span := some span }
          settleAt l c raw
        | _, _ => gap c .operandWithoutSpan
      | _, _ => gap c .noText
termination_by (sizeOf c.node, 1)
decreasing_by
  all_goals exact Prod.Lex.left _ _ (Cursor.sizeOf_child?_lt (by assumption))

def resolveOperandPlain (l : Locator) (c : Cursor) : Resolving Unit := do
  link c
  resolvePlain l c
termination_by (sizeOf c.node, 3)

end

open Progress

theorem resolvePlain_eq (l : Locator) (c : Cursor) : l.resolvePlain c = once c (l.locatePlain c) := by
  rw [resolvePlain]
  rfl

theorem locatePlain_eq (l : Locator) (c : Cursor) :
    l.locatePlain c = l.locateBy (pure ()) l.resolveOperandPlain c := by
  rw [locatePlain, locateBy]
  refine bind_congr fun p => ?_
  cases p.raw with
  | some raw => rfl
  | none =>
    refine ite_congr rfl (fun _ => rfl) fun _ => bind_congr fun _ => ?_
    refine ite_congr rfl (fun _ => rfl) fun _ => bind_congr fun _ => ?_
    refine ite_congr rfl (fun _ => ?_) fun _ => ?_
    · split
      · next hd => simp only [hd]
      · next hd =>
        simp only [hd]
        rfl
    · split
      · next hl hr =>
        simp only [hl, hr]
        rfl
      · next hnone =>
        split
        · next hl hr => exact (hnone _ _ hl hr).elim
        · rfl

section
variable {l : Locator} {r : Cursor}

/-- No chain is the chain on which there is nothing to do. -/
theorem noChain_outcome {c : Cursor} {busy : List Path} {p : Progress} (h : p.Faithful l r busy) :
    Outcome (pure () : Resolving Unit) p (fun _ p' => SpineReaches l r busy c p p' ∧
      ((∀ left, c.child? "left" = some left → l.Spanned left) → Ahead l r c p p'))
      (fun _ _ => ¬ ∀ left, c.child? "left" = some left → l.Spanned left) :=
  ⟨⟨h, .refl, fun _ _ _ hd => Or.inl hd⟩, fun _ => Or.inl rfl⟩

mutual

/-- **Resolving a node plainly** does what resolving it does. -/
theorem resolvePlain_outcome {c : Cursor} {busy : List Path} {p : Progress} (hc : r.Contains c)
    (hl : c.path = [] ∨ (p.mark c).linked = true) (hb : ∀ q ∈ busy, q.length < c.path.length)
    (h : p.Faithful l r busy) :
    Outcome (l.resolvePlain c) p
      (fun _ p' => Reaches l r busy c p p' ∧ Performs l r (p.pending c) p p')
      (fun _ _ => l.final? c = none) := by
  have hoperand : ∀ d ∈ c.operands, ∀ p₁ : Progress, p₁.Faithful l r (c.path :: busy) →
      Outcome (l.resolveOperandPlain d) p₁
        (fun _ p₂ => Reaches l r (c.path :: busy) d p₁ p₂ ∧ Supplies l r [d] p₁ p₂)
        (fun _ _ => l.final? d = none) := fun d hd p₁ h₁ => by
    have := Cursor.sizeOf_operand_lt hd
    exact resolveOperandPlain_outcome (contains_operand hc hd) (length_lt_of_operand hb hd) h₁
  rw [resolvePlain_eq, locatePlain_eq]
  refine ((once_outcome hc hl h fun p' h' hfresh => ?_).and
    (once_changes hc hl h fun p' h' hfresh => ?_)).imp (fun _ _ h => h) fun _ _ hf => hf.1
  · exact locateBy_outcome hc hb h' hfresh
      ((noChain_outcome h'.faithful).imp (fun _ _ h => h.1) fun _ _ hf => hf) fun d hd p₁ h₁ =>
        (hoperand d hd p₁ h₁).imp (fun _ _ h => h.1) fun _ _ hf => hf
  · exact locateBy_changes hc h'.linked hb hfresh h'.faithful
      ((noChain_outcome h'.faithful).imp (fun _ _ h => h) fun _ _ _ => trivial) fun d hd p₁ h₁ =>
        (hoperand d hd p₁ h₁).imp (fun _ _ h => h) fun _ _ _ => trivial
termination_by (sizeOf c.node, 0)

theorem resolveOperandPlain_outcome {c : Cursor} {busy : List Path} {p : Progress}
    (hc : r.Contains c) (hb : ∀ q ∈ busy, q.length < c.path.length) (h : p.Faithful l r busy) :
    Outcome (l.resolveOperandPlain c) p
      (fun _ p' => Reaches l r busy c p p' ∧ Supplies l r [c] p p')
      (fun _ _ => l.final? c = none) := by
  rw [resolveOperandPlain, outcome_bind, outcome_link]
  refine (resolvePlain_outcome hc (Or.inr ?_) hb (h.link hc)).imp (fun _ p' ⟨h', hchanges⟩ => ?_)
    fun _ _ hf => hf
  · rw [mark_setMark_self]
  · exact ⟨⟨h'.faithful, (keeps_link hc).trans h'.keeps, (adds_link hc).trans h'.adds, h'.done⟩,
      .of_link hc hchanges⟩
termination_by (sizeOf c.node, 1)

end

end

end Locator

/-! ## One resolution beside the other -/

namespace Progress

/-- Two resolutions have found out the same about every node below `r`, and made the same records in
the same order. -/
structure Alike (r : Cursor) (p q : Progress) : Prop where
  marks : ∀ d, r.Contains d → p.mark d = q.mark d
  log : p.log = q.log

/-- Two resolutions have come through the same schedule, with the same results. -/
structure Paired (l : Locator) (r : Cursor) (before : List Cursor) (p q : Progress) : Prop where
  left : p.Midway l r before
  right : q.Midway l r before
  alike : Alike r p q

section
variable {l : Locator} {r c : Cursor} {before cs : List Cursor} {done linked : List Cursor}
  {records : List Record} {p p' q q' : Progress}

theorem Alike.refl : Alike r p p := ⟨fun _ _ => rfl, rfl⟩

theorem Alike.pending_eq (h : Alike r p q) (hc : r.Contains c) : p.pending c = q.pending c :=
  pending_congr fun d hd => by rw [h.marks d (contains_of_draws hc hd)]

/-- What has been resolved stands at its final place and all else where it was reported, so two
resolutions that make the same changes stay alike. -/
theorem Alike.of_changes (h : Alike r p q) (hp : p'.Faithful l r []) (hq : q'.Faithful l r [])
    (hpc : Changes r done linked records p p') (hqc : Changes r done linked records q q') :
    Alike r p' q' := by
  refine ⟨fun d hd => ?_, by rw [hpc.log, hqc.log, h.log]⟩
  have hmark := h.marks d hd
  have hresolved : (p'.mark d).resolved = (q'.mark d).resolved := by
    rw [Bool.eq_iff_iff, hpc.resolved d hd, hqc.resolved d hd, hmark]
  have hlinked : (p'.mark d).linked = (q'.mark d).linked := by
    rw [Bool.eq_iff_iff, hpc.linked d hd, hqc.linked d hd, hmark]
  have hplacement : (p'.mark d).placement = (q'.mark d).placement := by
    cases hres : (p'.mark d).resolved with
    | true =>
      have hres' := hresolved.symm.trans hres
      exact Option.some.inj
        ((hp.final d hd hres List.not_mem_nil).symm.trans (hq.final d hd hres' List.not_mem_nil))
    | false =>
      rw [hp.fresh d hd hres, hq.fresh d hd (hresolved.symm.trans hres)]
  calc p'.mark d = ⟨(p'.mark d).placement, (p'.mark d).linked, (p'.mark d).resolved⟩ := rfl
    _ = q'.mark d := by rw [hplacement, hlinked, hresolved]

theorem Alike.link (h : Alike r p q) (hc : r.Contains c) :
    Alike r (p.setMark c { p.mark c with linked := true })
      (q.setMark c { q.mark c with linked := true }) := by
  refine ⟨fun d hd => ?_, h.log⟩
  rw [mark_update hc hd p fun m => { m with linked := true },
    mark_update hc hd q fun m => { m with linked := true }, h.marks d hd]

theorem Alike.record (h : Alike r p q) (records : List Record) :
    Alike r (p.record records) (q.record records) :=
  ⟨h.marks, by rw [(changes_record (r := r) records).log, (changes_record (r := r) records).log, h.log]⟩

theorem Paired.link (hc : r.Contains c) (hb : ∀ d ∈ before, r.Contains d)
    (h : Paired l r before p q) :
    Lockstep (Resolving.link c) (Resolving.link c) p q
      fun p' q' => Paired l r before p' q' ∧ (p'.mark c).linked = true := by
  refine ⟨rfl, ⟨h.left.link hc hb, h.right.link hc hb, h.alike.link hc⟩, ?_⟩
  exact congrArg Mark.linked (mark_setMark_self _ _ _)

theorem Paired.record (h : Paired l r before p q) (records : List Record) :
    Paired l r before (p.record records) (q.record records) :=
  ⟨h.left.record _, h.right.record _, h.alike.record _⟩

/-- **One call of a schedule**, beside the plain one. -/
theorem Paired.resolve (hc : r.Contains c) (hl : c.path = [] ∨ (p.mark c).linked = true)
    (hb : ∀ d ∈ before, r.Contains d) (h : Paired l r before p q) :
    Lockstep (l.resolve c) (l.resolvePlain c) p q
      fun p' q' => Paired l r (before ++ [c]) p' q' ∧ Keeps r p p' := by
  have hl' : c.path = [] ∨ (q.mark c).linked = true := h.alike.marks c hc ▸ hl
  have hplaced : ∀ {p₀ p₁ : Progress}, Reaches l r [] c p₀ p₁ → l.final? c ≠ none := fun h' => by
    rw [h'.faithful.final c hc h'.done List.not_mem_nil]
    exact Option.some_ne_none _
  refine lockstep_of_outcome (l.final? c = none)
    (((Locator.resolve_outcome hc hl (by simp) h.left.faithful).and
      (Locator.resolve_changes hc hl (by simp) h.left.faithful)).imp
      (fun _ _ h' => ⟨h', hplaced h'.1⟩) fun _ _ hf => hf.1)
    ((Locator.resolvePlain_outcome hc hl' (by simp) h.right.faithful).imp
      (fun _ _ h' => ⟨h', hplaced h'.1⟩) fun _ _ hf => hf) ?_
  rintro _ p' _ q' ⟨hp, hpc⟩ ⟨hq, hqc⟩
  rw [← h.alike.pending_eq hc] at hqc
  exact ⟨rfl, ⟨h.left.reached hb hp, h.right.reached hb hq,
    h.alike.of_changes hp.faithful hq.faithful hpc hqc⟩, hp.keeps⟩

/-- **A whole schedule**, beside the plain one. -/
theorem Paired.resolveAll (hr : ∀ c ∈ cs, r.Contains c)
    (hl : ∀ c ∈ cs, c.path = [] ∨ (p.mark c).linked = true) (h : Paired l r [] p q) :
    Lockstep (cs.forM l.resolve) (cs.forM l.resolvePlain) p q (Paired l r cs) := by
  refine (Lockstep.forM (fun before p' q' => Paired l r before p' q' ∧ Keeps r p p')
    (fun before c after p' q' hcs h' => ?_) ⟨h, .refl⟩).imp fun _ _ h' => h'.1
  obtain ⟨hpaired, hkeeps⟩ := h'
  have hc : c ∈ cs := by simp [hcs]
  exact (hpaired.resolve (hr c hc) ((hl c hc).imp id (hkeeps.linked c (hr c hc)))
    fun d hd => hr d (by simp [hcs, hd])).imp fun _ _ h'' => ⟨h''.1, hkeeps.trans h''.2⟩

end

end Progress

/-! ## One walk beside the other -/

namespace Annotation

/-- What is left to do at a node once it is linked, by any resolver. -/
def stepLinkedBy (resolve : Cursor → Resolving Unit) (c : Cursor) : Annotating Unit := do
  enterScope c
  resolving (resolve c)
  modify fun a => { a with visited := a.visited + 1 }

def stepBy (resolve : Cursor → Resolving Unit) (c : Cursor) : Annotating Unit := do
  if c.path.isEmpty then pure () else resolving (Resolving.link c)
  stepLinkedBy resolve c

def passBy (resolve : Cursor → Resolving Unit) (tree : Node) : Annotating Unit := do
  (Cursor.root tree).walk fun c => do
    stepBy resolve c
    return true
  let a ← get
  resolving (Resolving.record (.annotated a.visited))

theorem pass_eq_passBy (l : Locator) (tree : Node) : pass l tree = passBy l.resolve tree := by
  rw [pass, passBy, funext (visit_eq l)]
  rfl

/-- What two walks have found out beside where the nodes stand is the same. -/
structure SameScopes (a b : Annotation) : Prop where
  forest : a.forest = b.forest
  scopes : a.scopes = b.scopes
  visited : a.visited = b.visited

/-- Two walks have come through the same nodes, with the same results. -/
structure Paired (l : Locator) (r : Cursor) (before : List Cursor) (a b : Annotation) : Prop where
  progress : Progress.Paired l r before a.progress b.progress
  same : SameScopes a b

section
variable {l : Locator} {r c : Cursor} {before : List Cursor} {a b : Annotation}

theorem resolving_lockstep {α : Type} {x y : Resolving α} {rel : Progress → Progress → Prop}
    (h : Lockstep x y a.progress b.progress rel) (hsame : SameScopes a b) :
    Lockstep (resolving x) (resolving y) a b
      fun a' b' => rel a'.progress b'.progress ∧ SameScopes a' b' := by
  unfold Lockstep resolving at *
  cases hx : x a.progress with
  | ok u p =>
    rw [hx] at h
    cases hy : y b.progress with
    | ok v q =>
      rw [hy] at h
      exact ⟨h.1, h.2, hsame.forest, hsame.scopes, hsame.visited⟩
    | error e q =>
      rw [hy] at h
      exact h
  | error e p =>
    rw [hx] at h
    cases hy : y b.progress with
    | ok v q =>
      rw [hy] at h
      exact h
    | error e' q => trivial

/-- What a node does to the scopes. -/
def entry (a : Annotation) (c : Cursor) : Forest Cursor × Option ScopeId × Option Fault :=
  a.forest.enterNode c c.path.isEmpty (a.outerScope? c.path)

theorem SameScopes.entry_eq (h : SameScopes a b) (c : Cursor) : a.entry c = b.entry c := by
  have houter : a.outerScope? c.path = b.outerScope? c.path := by
    cases c.path with
    | nil => rfl
    | cons slot parent => rw [outerScope?, outerScope?, scopeAt?, scopeAt?, h.scopes]
  rw [entry, entry, h.forest, houter]

theorem enterScope_entry :
    Outcome (enterScope c) a
      (fun _ a' => a' = { a with
        forest := (a.entry c).1
        scopes := match (a.entry c).2.1 with
          | some i => a.scopes.insert c.path i
          | none => a.scopes } ∧ (a.entry c).2.2 = none)
      (fun _ _ => (a.entry c).2.2 ≠ none) := by
  rw [enterScope, outcome_bind, outcome_get]
  rcases hentry : a.entry c with ⟨forest, scope, fault⟩
  rw [entry] at hentry
  simp only [hentry, outcome_bind, outcome_set]
  cases fault with
  | none => exact ⟨rfl, rfl⟩
  | some fault => exact Option.some_ne_none fault

/-- Where a node is in scope does not depend on where it stands. -/
theorem enterScope_lockstep (h : SameScopes a b) :
    Lockstep (enterScope c) (enterScope c) a b
      fun a' b' => (a'.progress = a.progress ∧ b'.progress = b.progress) ∧ SameScopes a' b' := by
  have hb := enterScope_entry (c := c) (a := b)
  rw [← h.entry_eq c] at hb
  refine lockstep_of_outcome ((a.entry c).2.2 ≠ none)
    (enterScope_entry.imp (fun _ _ h' => ⟨h'.1, not_not.2 h'.2⟩) fun _ _ hf => hf)
    (hb.imp (fun _ _ h' => ⟨h'.1, not_not.2 h'.2⟩) fun _ _ hf => hf) ?_
  rintro _ _ _ _ rfl rfl
  exact ⟨rfl, ⟨rfl, rfl⟩, rfl, by rw [h.scopes], h.visited⟩

theorem Paired.stepLinked (hnext : r.Next before c) (h : Paired l r before a b)
    (hlinked : c.path = [] ∨ (a.progress.mark c).linked = true) :
    Lockstep (stepLinkedBy l.resolve c) (stepLinkedBy l.resolvePlain c) a b
      (Paired l r (before ++ [c])) := by
  refine (enterScope_lockstep h.same).bind fun _ a₁ b₁ ⟨⟨hleft, hright⟩, hsame⟩ => ?_
  have hresolve := h.progress.resolve hnext.contains hlinked hnext.visited
  rw [← hleft, ← hright] at hresolve
  refine (resolving_lockstep hresolve hsame).bind fun _ a₂ b₂ ⟨⟨hpaired, _⟩, hsame⟩ => ?_
  exact ⟨rfl, hpaired, hsame.forest, hsame.scopes, congrArg (· + 1) hsame.visited⟩

/-- **One node of the walk**, beside the plain one. -/
theorem Paired.step (hnext : r.Next before c) (h : Paired l r before a b) :
    Lockstep (stepBy l.resolve c) (stepBy l.resolvePlain c) a b (Paired l r (before ++ [c])) := by
  unfold stepBy
  split
  · next hroot => exact h.stepLinked hnext (Or.inl (List.isEmpty_iff.1 hroot))
  · refine (resolving_lockstep (h.progress.link hnext.contains hnext.visited) h.same).bind
      fun _ a₁ b₁ ⟨⟨hpaired, hlinked⟩, hsame⟩ => ?_
    exact Paired.stepLinked hnext ⟨hpaired, hsame⟩ (Or.inr hlinked)

/-- **The walk over a whole tree**, beside the plain one. -/
theorem Paired.pass {tree : Node} (h : Paired l (.root tree) [] a b) :
    Lockstep (passBy l.resolve tree) (passBy l.resolvePlain tree) a b
      (Paired l (.root tree) (Cursor.root tree).preorder) := by
  have hwalk : ∀ resolve : Cursor → Resolving Unit, (Cursor.root tree).walk (fun c => do
      stepBy resolve c
      return true) = (Cursor.root tree).preorder.forM (stepBy resolve) := fun resolve =>
    Cursor.walk_eq_forM (stepBy resolve) (fun _ => rfl) _
  rw [passBy, passBy, hwalk, hwalk]
  refine (Lockstep.forM (Paired l (.root tree)) (fun before c after a b hcs h => ?_) h).bind
    fun _ a' b' h' => ?_
  · exact h.step (Cursor.next_of_preorder rfl hcs)
  · have hrecord : Progress.Paired l (.root tree) (Cursor.root tree).preorder
        (a'.progress.record [.annotated a'.visited])
        (b'.progress.record [.annotated b'.visited]) := by
      rw [h'.same.visited]
      exact h'.progress.record _
    exact ⟨rfl, hrecord, h'.same.forest, h'.same.scopes, h'.same.visited⟩

end

end Annotation

def annotatePlain (source : Text) (window : Window) (tree : Node) : Except Fault Annotated :=
  match Annotation.passBy (Locator.ofSource source window).resolvePlain tree {} with
  | .ok () a => .ok ⟨a.progress.place tree, a⟩
  | .error fault _ => .error fault

/-- Two annotations of a tree have found out the same about all of its nodes, made the same records in
the same order and opened the same scopes, and the nodes of the two annotated trees stand at the same
places. -/
structure Annotated.Alike (tree : Node) (a b : Annotated) : Prop where
  progress : a.annotation.progress.Alike (.root tree) b.annotation.progress
  scopes : a.annotation.SameScopes b.annotation
  places : a.nodes.map (·.node.placement) = b.nodes.map (·.node.placement)

section
variable {source : Text} {window : Window} {tree : Node}

theorem placements_place (p : Progress) (tree : Node) :
    (Cursor.root (p.place tree)).preorder.map (·.node.placement) =
      (Cursor.root tree).preorder.map fun c => (p.mark c).placement := by
  rw [Progress.root_place, (Progress.mirror_placed p).preorder_map trivial, List.map_map]
  exact List.map_congr_left fun c _ => Progress.placement_placed p c

theorem Annotated.Alike.of_progress {a b : Annotation}
    (h : a.progress.Alike (.root tree) b.progress) (hsame : a.SameScopes b) :
    Annotated.Alike tree ⟨a.progress.place tree, a⟩ ⟨b.progress.place tree, b⟩ := by
  refine ⟨h, hsame, ?_⟩
  rw [Annotated.nodes, Annotated.nodes, placements_place, placements_place]
  refine List.map_congr_left fun c hc => ?_
  rw [h.marks c (Cursor.contains_of_mem_preorder hc)]

/-- The two annotations come to their ends together. -/
theorem annotate_lockstep (source : Text) (window : Window) (tree : Node) :
    (∃ a b, annotate source window tree = .ok a ∧
      annotatePlain source window tree = .ok b ∧ a.Alike tree b) ∨
    ((¬ ∃ a, annotate source window tree = .ok a) ∧
      ¬ ∃ b, annotatePlain source window tree = .ok b) := by
  have hstart := Annotation.midway_start (.ofSource source window) tree
  have hpass := Annotation.Paired.pass ⟨⟨hstart, hstart, .refl⟩, rfl, rfl, rfl⟩
  rw [← Annotation.pass_eq_passBy] at hpass
  unfold annotate annotatePlain Annotation.run
  unfold Lockstep at hpass
  split at hpass
  · next a _ b hp hq =>
    rw [hp, hq]
    exact Or.inl ⟨_, _, rfl, rfl, .of_progress hpass.2.progress.alike hpass.2.same⟩
  · next hp hq =>
    rw [hp, hq]
    exact Or.inr ⟨by simp, by simp⟩
  · exact hpass.elim
  · exact hpass.elim

/-- **Chains are taken as plain descent would take them.** From any progress at which nothing has been
resolved, every schedule goes as the plain one goes; a tree can be annotated if it can be annotated
plainly, and then the two annotations are alike. -/
theorem plain_agrees (source : Text) (window : Window) (tree : Node) :
    (∀ (l : Locator) (p : Progress) (cs : List Cursor), p.Pristine (.root tree) →
      (∀ c ∈ cs, (Cursor.root tree).Contains c ∧ (c.path = [] ∨ (p.mark c).linked = true)) →
      Lockstep (cs.forM l.resolve) (cs.forM l.resolvePlain) p p (Progress.Alike (.root tree))) ∧
    ((∃ a, annotate source window tree = .ok a) ↔ ∃ b, annotatePlain source window tree = .ok b) ∧
    ∀ a b, annotate source window tree = .ok a → annotatePlain source window tree = .ok b →
      a.Alike tree b := by
  refine ⟨fun l p cs hp hcs => ?_, ?_, fun a b ha hb => ?_⟩
  · have hstart : p.Midway l (.root tree) [] := .start hp
    exact (Progress.Paired.resolveAll (fun c hc => (hcs c hc).1) (fun c hc => (hcs c hc).2)
      ⟨hstart, hstart, .refl⟩).imp fun _ _ h => h.alike
  · rcases annotate_lockstep source window tree with ⟨a, b, ha, hb, -⟩ | ⟨ha, hb⟩
    · exact ⟨fun _ => ⟨b, hb⟩, fun _ => ⟨a, ha⟩⟩
    · exact ⟨fun h => absurd h ha, fun h => absurd h hb⟩
  · rcases annotate_lockstep source window tree with ⟨a', b', ha', hb', h⟩ | ⟨hnone, -⟩
    · obtain rfl := Except.ok.inj (ha.symm.trans ha')
      obtain rfl := Except.ok.inj (hb.symm.trans hb')
      exact h
    · exact absurd ⟨a, ha⟩ hnone

end

/-- The sum `a+b+c`, as it is reported: a chain of two operators without texts of their own. -/
def Node.chain : Node :=
  .mk "PlusOp" {} [("left", .node .sum), ("right", .node (.identifier 'c' 5))]

theorem preorder_chain : (Cursor.root .chain).preorder =
    [.root .chain, ⟨.sum, [⟨"left", []⟩], some "PlusOp"⟩,
      ⟨.identifier 'a' 1, [⟨"left", []⟩, ⟨"left", []⟩], some "PlusOp"⟩,
      ⟨.identifier 'b' 3, [⟨"right", []⟩, ⟨"left", []⟩], some "PlusOp"⟩,
      ⟨.identifier 'c' 5, [⟨"right", []⟩], some "PlusOp"⟩] := by
  let inner : Cursor := ⟨.sum, [⟨"left", []⟩], some "PlusOp"⟩
  let last : Cursor := ⟨.identifier 'c' 5, [⟨"right", []⟩], some "PlusOp"⟩
  have hinner : inner.preorder = inner :: inner.children := by
    refine Cursor.preorder_of_leaves fun d hd => ?_
    rw [show inner.children = [_, _] from rfl, List.mem_cons, List.mem_singleton] at hd
    rcases hd with rfl | rfl <;> rfl
  rw [Cursor.preorder_eq, show (Cursor.root .chain).children = [inner, last] from rfl,
    List.flatMap_cons, List.flatMap_singleton, hinner, Cursor.preorder_leaf (c := last) rfl]
  rfl

/-- Both annotate the chain, and both resolve it from its root. -/
theorem plain_agrees_chain :
    let source := ['a', '+', 'b', '+', 'c']
    let l := Locator.ofSource source .standard
    (∃ a b, annotate source .standard .chain = .ok a ∧ annotatePlain source .standard .chain = .ok b ∧
      a.Alike .chain b) ∧
    ∃ p q, [Cursor.root .chain].forM l.resolve {} = .ok () p ∧
      [Cursor.root .chain].forM l.resolvePlain {} = .ok () q ∧ p.Alike (.root .chain) q := by
  intro source l
  obtain ⟨hschedule, hiff, halike⟩ := plain_agrees source .standard .chain
  have hpristine := Progress.pristine_empty (.root .chain)
  have hplaced : ∀ c ∈ (Cursor.root .chain).preorder, l.final? c ≠ none ∧ c.introduced.fault = none := by
    rw [preorder_chain]
    simp only [List.forall_mem_cons]
    refine ⟨⟨?_, rfl⟩, ⟨?_, rfl⟩, ⟨?_, rfl⟩, ⟨?_, rfl⟩, ⟨?_, rfl⟩, by simp⟩ <;>
      decide +kernel
  obtain ⟨a, ha⟩ := annotate_ok_iff.2 hplaced
  obtain ⟨b, hb⟩ := hiff.1 ⟨a, ha⟩
  refine ⟨⟨a, b, ha, hb, halike a b ha hb⟩, ?_⟩
  have hcs : ∀ c ∈ [Cursor.root .chain], (Cursor.root .chain).Contains c ∧ c.path = [] := fun c hc => by
    rw [List.mem_singleton.1 hc]
    exact ⟨.refl, rfl⟩
  have hroot := hschedule l {} [.root .chain] hpristine fun c hc => ⟨(hcs c hc).1, Or.inl (hcs c hc).2⟩
  have hrun : Outcome ([Cursor.root .chain].forM l.resolve) {} _ _ :=
    Progress.Midway.resolveAll (fun c hc => (hcs c hc).1) (fun c hc => Or.inl (hcs c hc).2)
      (.start hpristine)
  unfold Lockstep at hroot
  split at hroot
  · next u p v q hp hq => exact ⟨p, q, hp, hq, hroot.2⟩
  · next hp _ =>
    obtain ⟨c, hc, hf⟩ := hrun.of_error hp
    rw [List.mem_singleton.1 hc] at hf
    exact absurd hf (hplaced _ (by rw [preorder_chain]; exact List.mem_cons_self)).1
  · exact hroot.elim
  · exact hroot.elim

end SyntaxSpans
