import Mathlib.Data.List.Forall2
import SyntaxSpans.Placement.Resolve

/-!
# Outcomes of a step

A step of a resolution, or of the walk, ends in an answer or in a fault, and in either case leaves a
state. `Outcome step s post failed` says both at once: what holds of the answer and the state after
it, and what holds of the fault and the state it leaves. `outcome_bind` takes a sequence of steps
apart, and `Outcome.forM` carries an invariant along a list of steps, so no proof about the resolver
looks at `EStateM` itself. `bind_ok_iff` and `exists_mapM_iff` do the same for
results without a state.
-/

namespace SyntaxSpans

/-! ## Results, and lists of them -/

section
variable {ε α β : Type}

theorem bind_ok_iff {x : Except ε α} {f : α → Except ε β} {b : β} :
    (do let a ← x; f a) = .ok b ↔ ∃ a, x = .ok a ∧ f a = .ok b := by
  cases x <;> simp [bind, Except.bind]

theorem exists_left_of_forall₂ {rel : α → β → Prop} {xs : List α} {ys : List β}
    (h : List.Forall₂ rel xs ys) : ∀ y ∈ ys, ∃ x ∈ xs, rel x y := by
  induction h with
  | nil => simp
  | cons hxy _ ih =>
    intro y hy
    rcases List.mem_cons.1 hy with rfl | hy
    · exact ⟨_, List.mem_cons_self, hxy⟩
    · obtain ⟨x, hx, hrel⟩ := ih y hy
      exact ⟨x, List.mem_cons_of_mem _ hx, hrel⟩

theorem exists_right_of_forall₂ {rel : α → β → Prop} {xs : List α} {ys : List β}
    (h : List.Forall₂ rel xs ys) : ∀ x ∈ xs, ∃ y ∈ ys, rel x y :=
  exists_left_of_forall₂ h.flip

/-- A step succeeds along a list if it does at every item. -/
theorem exists_mapM_iff {f : α → Except ε β} {xs : List α} :
    (∃ ys, xs.mapM f = .ok ys) ↔ ∀ x ∈ xs, ∃ y, f x = .ok y := by
  induction xs with
  | nil => simp [pure, Except.pure]
  | cons x rest ih =>
    simp only [List.mapM_cons, bind_ok_iff, List.forall_mem_cons, ← ih]
    constructor
    · rintro ⟨_, y, hy, ys, hys, -⟩
      exact ⟨⟨y, hy⟩, ys, hys⟩
    · rintro ⟨⟨y, hy⟩, ys, hys⟩
      exact ⟨y :: ys, y, hy, ys, hys, rfl⟩

theorem mem_mapM_iff {f : α → Except ε β} {xs : List α} {ys : List β} {y : β}
    (h : xs.mapM f = .ok ys) : y ∈ ys ↔ ∃ x ∈ xs, f x = .ok y := by
  induction xs generalizing ys with
  | nil =>
    cases h
    simp
  | cons x rest ih =>
    simp only [List.mapM_cons, bind_ok_iff] at h
    obtain ⟨y', hy', ys', hys', h⟩ := h
    cases h
    rw [List.mem_cons, ih hys']
    constructor
    · rintro (rfl | ⟨x', hx', hfx'⟩)
      · exact ⟨x, List.mem_cons_self, hy'⟩
      · exact ⟨x', List.mem_cons_of_mem _ hx', hfx'⟩
    · rintro ⟨x', hx', hfx'⟩
      rcases List.mem_cons.1 hx' with rfl | hx'
      · exact Or.inl (Except.ok.inj (hfx'.symm.trans hy'))
      · exact Or.inr ⟨x', hx', hfx'⟩

end

/-! ## Steps with a state -/

/-- `step` from `s` ends with `post` of its answer, or with `failed` of its fault. -/
def Outcome {σ α : Type} (step : EStateM Fault σ α) (s : σ) (post : α → σ → Prop)
    (failed : Fault → σ → Prop) : Prop :=
  match step s with
  | .ok a s' => post a s'
  | .error e s' => failed e s'

section
variable {σ α β : Type} {s : σ} {post : α → σ → Prop} {failed : Fault → σ → Prop}

theorem outcome_bind {x : EStateM Fault σ β} {f : β → EStateM Fault σ α} :
    Outcome (x >>= f) s post failed ↔
      Outcome x s (fun b s' => Outcome (f b) s' post failed) failed := by
  simp only [Outcome, bind, EStateM.bind]
  cases x s <;> rfl

@[simp] theorem outcome_pure {a : α} : Outcome (pure a) s post failed ↔ post a s := Iff.rfl

@[simp] theorem outcome_throw {e : Fault} :
    Outcome (throw e : EStateM Fault σ α) s post failed ↔ failed e s := Iff.rfl

@[simp] theorem outcome_get {post : σ → σ → Prop} :
    Outcome (get : EStateM Fault σ σ) s post failed ↔ post s s := Iff.rfl

@[simp] theorem outcome_set {s' : σ} {post : PUnit → σ → Prop} :
    Outcome (set s' : EStateM Fault σ PUnit) s post failed ↔ post ⟨⟩ s' := Iff.rfl

@[simp] theorem outcome_modify {f : σ → σ} {post : PUnit → σ → Prop} :
    Outcome (modify f : EStateM Fault σ PUnit) s post failed ↔ post ⟨⟩ (f s) := Iff.rfl

/-- A weaker answer, and a weaker fault, hold as well. -/
theorem Outcome.imp {step : EStateM Fault σ α} {post' : α → σ → Prop} {failed' : Fault → σ → Prop}
    (h : Outcome step s post failed) (hp : ∀ a s', post a s' → post' a s')
    (hf : ∀ e s', failed e s' → failed' e s') : Outcome step s post' failed' := by
  unfold Outcome at h ⊢
  split
  · next a s' hs => rw [hs] at h; exact hp a s' h
  · next e s' hs => rw [hs] at h; exact hf e s' h

theorem Outcome.and {step : EStateM Fault σ α} {post' : α → σ → Prop} {failed' : Fault → σ → Prop}
    (h : Outcome step s post failed) (h' : Outcome step s post' failed') :
    Outcome step s (fun a s' => post a s' ∧ post' a s') (fun e s' => failed e s' ∧ failed' e s') := by
  unfold Outcome at h h' ⊢
  split
  · next a s' hs => rw [hs] at h h'; exact ⟨h, h'⟩
  · next e s' hs => rw [hs] at h h'; exact ⟨h, h'⟩

theorem Outcome.of_ok {step : EStateM Fault σ α} (h : Outcome step s post failed) {a : α} {s' : σ}
    (hs : step s = .ok a s') : post a s' := by
  unfold Outcome at h; rwa [hs] at h

theorem Outcome.of_error {step : EStateM Fault σ α} (h : Outcome step s post failed) {e : Fault}
    {s' : σ} (hs : step s = .error e s') : failed e s' := by
  unfold Outcome at h; rwa [hs] at h

/-- An outcome that leaves one end only. -/
theorem eq_of_outcome {step : EStateM Fault σ α} {out : EStateM.Result Fault σ α}
    (h : Outcome step s (fun a s' => out = .ok a s') fun e s' => out = .error e s') :
    step s = out := by
  unfold Outcome at h
  cases hs : step s <;> (rw [hs] at h; exact h.symm)

theorem bind_of_ok {x : EStateM Fault σ β} {f : β → EStateM Fault σ α} {b : β} {s' : σ}
    (h : x s = .ok b s') : (x >>= f) s = f b s' := by
  refine (EStateM.run_bind x f).trans ?_
  rw [EStateM.run, h]
  rfl

theorem bind_of_error {x : EStateM Fault σ β} {f : β → EStateM Fault σ α} {e : Fault} {s' : σ}
    (h : x s = .error e s') : (x >>= f) s = .error e s' := by
  refine (EStateM.run_bind x f).trans ?_
  rw [EStateM.run, h]

/-- An invariant of the items dealt with so far goes along a list of steps. Each step may use which
items came before it. -/
theorem Outcome.forM {f : β → EStateM Fault σ PUnit} {items : List β} (inv : List β → σ → Prop)
    (hstep : ∀ before b after s, items = before ++ b :: after → inv before s →
      Outcome (f b) s (fun _ s' => inv (before ++ [b]) s') failed) (h0 : inv [] s) :
    Outcome (items.forM f) s (fun _ s' => inv items s') failed := by
  suffices go : ∀ (after before : List β) (s : σ), items = before ++ after → inv before s →
      Outcome (after.forM f) s (fun _ s' => inv items s') failed from go items [] s rfl h0
  intro after
  induction after with
  | nil =>
    intro before s hi h
    rw [List.append_nil] at hi
    subst hi
    exact h
  | cons b rest ih =>
    intro before s hi h
    rw [List.forM_eq_forM, List.forM_cons, outcome_bind]
    refine (hstep before b rest s hi h).imp (fun _ s' h' => ?_) fun _ _ h' => h'
    exact ih (before ++ [b]) s' (by simp [hi]) h'

end

/-! ## The steps of a resolution -/

section
variable {p : Progress} {failed : Fault → Progress → Prop} {c : Cursor}

@[simp] theorem outcome_mark {post : Mark → Progress → Prop} :
    Outcome (Resolving.mark c) p post failed ↔ post (p.mark c) p := Iff.rfl

@[simp] theorem outcome_placement {post : Placement → Progress → Prop} :
    Outcome (Resolving.placement c) p post failed ↔ post (p.mark c).placement p := Iff.rfl

@[simp] theorem outcome_place {placement : Placement} {post : PUnit → Progress → Prop} :
    Outcome (Resolving.place c placement) p post failed ↔
      post ⟨⟩ (p.setMark c { p.mark c with placement }) := Iff.rfl

@[simp] theorem outcome_link {post : PUnit → Progress → Prop} :
    Outcome (Resolving.link c) p post failed ↔
      post ⟨⟩ (p.setMark c { p.mark c with linked := true }) := Iff.rfl

@[simp] theorem outcome_markResolved {post : PUnit → Progress → Prop} :
    Outcome (Resolving.markResolved c) p post failed ↔
      post ⟨⟩ (p.setMark c { p.mark c with resolved := true }) := Iff.rfl

@[simp] theorem outcome_record {r : Record} {post : PUnit → Progress → Prop} :
    Outcome (Resolving.record r) p post failed ↔ post ⟨⟩ (p.record [r]) := Iff.rfl

@[simp] theorem outcome_heldAs {name : String} {post : Bool → Progress → Prop} :
    Outcome (Locator.heldAs c name) p post failed ↔
      post ((p.mark c).linked && c.isIn name) p := Iff.rfl

@[simp] theorem outcome_heldBy {kind name : String} {post : Bool → Progress → Prop} :
    Outcome (Locator.heldBy c kind name) p post failed ↔
      post ((p.mark c).linked && c.isIn name && c.parentKind == some kind) p := Iff.rfl

@[simp] theorem outcome_gap {cause : Gap} {post : PUnit → Progress → Prop} :
    Outcome (Locator.gap c cause) p post failed ↔
      failed (.gap cause c.kind (p.mark c).placement.line (p.mark c).placement.column) p := Iff.rfl

/-- What becomes of a node whose text is known is what settling makes of it. -/
theorem outcome_settleAt {l : Locator} {raw : Text} {post : PUnit → Progress → Prop} :
    Outcome (l.settleAt c raw) p post failed ↔
      let s := l.settle ⟨c.kind, (p.mark c).linked && c.isIn "step"⟩ raw (p.mark c).placement.toAnchor
      let p' := (p.setMark c
        { p.mark c with placement := { s.anchor with raw := some s.raw } }).record s.records
      match s.fault with
      | some fault => failed fault p'
      | none => post ⟨⟩ p' := by
  rw [Locator.settleAt, outcome_bind, outcome_placement, outcome_bind, outcome_heldAs]
  simp only [outcome_bind, outcome_place, outcome_modify]
  cases (l.settle ⟨c.kind, (p.mark c).linked && c.isIn "step"⟩ raw (p.mark c).placement.toAnchor).fault with
  | none => rfl
  | some fault => rfl

end

end SyntaxSpans
