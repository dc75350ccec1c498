import SyntaxSpans.Proofs.Courses
import SyntaxSpans.Proofs.Plain
import SyntaxSpans.Proofs.Visiting

/-!
# Steps with a journal

A step that keeps a journal need not end. `Follows` says that it does, as a step without a journal does, in
a state that is alike, and that its entries take every node along its course. The rules for it take a
sequence of steps apart; each of them is about a step and what comes behind it.
-/

namespace SyntaxSpans

/-- A step that keeps a journal. It may fail to end; else it may end in a fault, and keeps what was
found out and entered before. -/
abbrev Journaling (σ : Type) := ExceptT Fault (StateT (σ × List Entry) Option)

namespace Journaling

variable {σ α : Type}

/-- A step that makes no entry. -/
def quietly (step : EStateM Fault σ α) : Journaling σ α := fun s =>
  match step s.1 with
  | .ok a t => some (.ok a, (t, s.2))
  | .error e t => some (.error e, (t, s.2))

/-- A step with an entry about the state that it leaves, unless it ends in a fault. -/
def entering (step : EStateM Fault σ α) (entry : σ → Entry) : Journaling σ α := fun s =>
  match step s.1 with
  | .ok a t => some (.ok a, (t, s.2 ++ [entry t]))
  | .error e t => some (.error e, (t, s.2))

/-- A step of a resolution, where its progress is a part of the state. -/
def within (v : View σ) (step : Journaling Progress α) : Journaling σ α := fun s =>
  (step (v.progress s.1, s.2)).map fun (answer, p, journal) => (answer, (v.put s.1 p, journal))

theorem bind_apply {β : Type} (x : Journaling σ α) (f : α → Journaling σ β) (s : σ × List Entry) :
    (x >>= f) s = (x s).bind fun
      | (.ok a, s') => f a s'
      | (.error e, s') => some (.error e, s') := by
  change (x s).bind _ = _
  refine congrArg _ (funext fun ⟨a, s'⟩ => ?_)
  cases a <;> rfl

end Journaling

/-! ## Progress, and what was entered on the way -/

namespace Progress

/-- What a journal follows of a node. -/
def status (p : Progress) (d : Cursor) : Status := ⟨(p.mark d).resolved, (p.mark d).placement.raw⟩

def Holds (r : Cursor) (p p' : Progress) : Prop :=
  ∀ d, r.Contains d → p'.status d = p.status d

/-- From `p` the resolution has come to `p'`, and has entered `new` on the way. -/
structure Enters (r : Cursor) (bound : Nat) (p p' : Progress) (new : List Entry) : Prop where
  /-- No entry stands above `bound`. -/
  level : ∀ e ∈ new, bound ≤ e.level
  /-- Every node keeps to its course. -/
  course : ∀ d, r.Contains d → Course d.path (p.status d) new (p'.status d)
  /-- Only an operator that has not been dealt with is taken ahead. -/
  fresh : ∀ d, r.Contains d → .chained d.path ∈ new → (p.mark d).resolved = false
  /-- None is taken ahead twice. -/
  once : ∀ d, r.Contains d → new.count (.chained d.path) ≤ 1

/-- What was taken ahead has been dealt with. -/
def Closes (r : Cursor) (p : Progress) (new : List Entry) : Prop :=
  ∀ d, r.Contains d → .chained d.path ∈ new → (p.mark d).resolved = true

section
variable {r c d : Cursor} {bound bound' : Nat} {p p' p'' q q' : Progress} {new new' : List Entry}

theorem Holds.enters (h : Holds r p p') : Enters r bound p p' [] :=
  ⟨by simp, fun d hd => h d hd ▸ .done, by simp, by simp⟩

theorem Enters.mono (hle : bound' ≤ bound) (h : Enters r bound p p' new) :
    Enters r bound' p p' new :=
  ⟨fun e he => Nat.le_trans hle (h.level e he), h.course, h.fresh, h.once⟩

theorem Enters.resolved (h : Enters r bound p p' new) (hd : r.Contains d)
    (hres : (p.mark d).resolved = true) : (p'.mark d).resolved = true :=
  (h.course d hd).resolved hres

/-- A node above all that was entered has the status that it had. -/
theorem Enters.status_eq (h : Enters r bound p p' new) (hd : r.Contains d)
    (hlt : 2 * d.path.length + 1 < bound) : p'.status d = p.status d :=
  (h.course d hd).eq_of_not_about fun e he =>
    Entry.not_about_of_level (Nat.lt_of_lt_of_le hlt (h.level e he))

theorem Enters.trans (h : Enters r bound p p' new) (hclosed : Closes r p' new)
    (h' : Enters r bound p' p'' new') : Enters r bound p p'' (new ++ new') := by
  refine ⟨fun e he => ?_, fun d hd => (h.course d hd).trans (h'.course d hd), fun d hd he => ?_,
    fun d hd => ?_⟩
  · exact (List.mem_append.1 he).elim (h.level e) (h'.level e)
  · refine (List.mem_append.1 he).elim (h.fresh d hd) fun he => ?_
    by_contra hres
    have := h.resolved hd (Bool.of_not_eq_false hres)
    rw [h'.fresh d hd he] at this
    cases this
  · rw [List.count_append]
    by_cases hmem : .chained d.path ∈ new
    · have hnot : .chained d.path ∉ new' := fun hmem' => by
        have := h'.fresh d hd hmem'
        rw [hclosed d hd hmem] at this
        cases this
      rw [List.count_eq_zero.2 hnot]
      exact h.once d hd
    · rw [List.count_eq_zero.2 hmem, Nat.zero_add]
      exact h'.once d hd

theorem Closes.trans (hclosed : Closes r p' new) (h' : Enters r bound p' p'' new')
    (hclosed' : Closes r p'' new') : Closes r p'' (new ++ new') := fun d hd he =>
  (List.mem_append.1 he).elim (fun he => h'.resolved hd (hclosed d hd he)) (hclosed' d hd)

theorem Alike.trans (h : Alike r p p') (h' : Alike r p' p'') : Alike r p p'' :=
  ⟨fun d hd => (h.marks d hd).trans (h'.marks d hd), h.log.trans h'.log⟩

theorem Alike.update (h : Alike r p q) (hc : r.Contains c) (f : Mark → Mark) :
    Alike r (p.setMark c (f (p.mark c))) (q.setMark c (f (q.mark c))) := by
  refine ⟨fun d hd => ?_, h.log⟩
  rw [mark_update hc hd p f, mark_update hc hd q f, h.marks d hd]

theorem Holds.link (hc : r.Contains c) : Holds r p (p.setMark c { p.mark c with linked := true }) := by
  intro d hd
  unfold status
  rw [mark_update hc hd p fun m => { m with linked := true }]
  split <;> rfl

/-- An entry that goes with a change of the mark of its node. -/
theorem Enters.update (hc : r.Contains c) {f : Mark → Mark} {e : Entry}
    (hentry : ∀ d : Cursor, e.isAbout d.path = (c.path == d.path))
    (hlevel : e.level = 2 * c.path.length + 1)
    (hcourse : Course c.path (p.status c) [e]
      ⟨(f (p.mark c)).resolved, (f (p.mark c)).placement.raw⟩) :
    Enters r (2 * c.path.length + 1) p (p.setMark c (f (p.mark c))) [e] := by
  have hnot : ∀ path, .chained path ∉ [e] := fun path hmem => by
    rw [← List.mem_singleton.1 hmem] at hentry
    simpa [Entry.isAbout] using hentry c
  refine ⟨List.forall_mem_singleton.2 (Nat.le_of_eq hlevel.symm), fun d hd => ?_,
    fun d _ hmem => absurd hmem (hnot _), fun d _ => by simp [List.count_eq_zero.2 (hnot d.path)]⟩
  have hmark := mark_update hc hd p f
  by_cases heq : d.path = c.path
  · obtain rfl := hd.eq_of_path hc heq
    rw [if_pos rfl] at hmark
    simp only [status, hmark]
    exact hcourse
  · rw [if_neg heq] at hmark
    simp only [status, hmark]
    refine .of_not_about (List.forall_mem_singleton.2 ?_)
    rw [hentry]
    exact beq_eq_false_iff_ne.2 (Ne.symm heq)

theorem Enters.first (hc : r.Contains c) (hres : (p.mark c).resolved = false)
    (hp : p' = p.setMark c { p.mark c with resolved := true }) :
    Enters r (2 * c.path.length + 1) p p' [.first c.path (p'.mark c).placement.raw] := by
  subst hp
  rw [mark_setMark_self]
  refine .update hc (f := fun m => { m with resolved := true }) (fun _ => rfl) rfl ?_
  rw [status, hres]
  exact .first .done

section
variable {placement : Placement} {raw inner : Text}

theorem Enters.given (hc : r.Contains c) (h : p.status c = ⟨true, none⟩)
    (hraw : placement.raw = some raw) :
    Enters r (2 * c.path.length + 1) p (p.setMark c { p.mark c with placement })
      [.given c.path raw] := by
  refine .update hc (f := fun m => { m with placement }) (fun _ => rfl) rfl ?_
  obtain ⟨hres, -⟩ := Status.mk.inj h
  rw [h, hres, hraw]
  exact .given .done

theorem Enters.again (hc : r.Contains c) (h : p.status c = ⟨true, some raw⟩)
    (hraw : placement.raw = some inner) (hlength : inner.length + 2 = raw.length) :
    Enters r (2 * c.path.length + 1) p (p.setMark c { p.mark c with placement })
      [.again c.path inner] := by
  refine .update hc (f := fun m => { m with placement }) (fun _ => rfl) rfl ?_
  obtain ⟨hres, -⟩ := Status.mk.inj h
  rw [h, hres, hraw]
  exact .again hlength .done

end

end

end Progress

/-! ## A step with a journal beside one without -/

def answer {σ α : Type} : EStateM.Result Fault σ α → Except Fault α
  | .ok a _ => .ok a
  | .error e _ => .error e

def final {σ α : Type} : EStateM.Result Fault σ α → σ
  | .ok _ s => s
  | .error _ s => s

open Progress

section
variable {σ α β : Type} {v : View σ} {r c d : Cursor} {bound bound' : Nat}

/-- The same has been found out about the tree, and all else is the same. -/
def View.Alike (v : View σ) (r : Cursor) (s t : σ) : Prop :=
  (v.progress s).Alike r (v.progress t) ∧ s = v.put t (v.progress s)

/-- From `s`, the step `x` ends as `out` says, with `post` of its answer, and keeps to the rules for its
entries, whatever was in the journal before. -/
def Follows (v : View σ) (r : Cursor) (bound : Nat) (x : Journaling σ α) (s : σ)
    (out : EStateM.Result Fault σ α) (post : α → σ → Prop) : Prop :=
  ∀ journal, ∃ s' new, x (s, journal) = some (answer out, (s', journal ++ new)) ∧
    v.Alike r s' (final out) ∧ Enters r bound (v.progress s) (v.progress s') new ∧
    ∀ a, answer out = .ok a → Closes r (v.progress s') new ∧ post a s'

namespace Follows

variable {x : Journaling σ α} {s t s' t' : σ} {out out' : EStateM.Result Fault σ α}
  {post post' : α → σ → Prop} {act : EStateM Fault σ α} {a : α}

theorem mono (hle : bound' ≤ bound) (h : Follows v r bound x s out post)
    (hpost : ∀ a s', post a s' → post' a s') : Follows v r bound' x s out post' := by
  intro journal
  obtain ⟨s', new, hx, halike, henters, hok⟩ := h journal
  exact ⟨s', new, hx, halike, henters.mono hle, fun a ha => ⟨(hok a ha).1, hpost a s' (hok a ha).2⟩⟩

/-- Only what the step does from `s` on matters. -/
theorem congr_step {x' : Journaling σ α} (hx : ∀ journal, x (s, journal) = x' (s, journal))
    (h : Follows v r bound x s out post) : Follows v r bound x' s out post := fun journal => by
  rw [← hx]
  exact h journal

/-- A step of a resolution may be compared to another one that ends in the same way. -/
theorem congr_out {x : Journaling Progress α} {p : Progress}
    {out out' : EStateM.Result Fault Progress α} {post : α → Progress → Prop}
    (hanswer : answer out' = answer out) (hfinal : (final out).Alike r (final out'))
    (h : Follows .whole r bound x p out post) : Follows .whole r bound x p out' post := by
  intro journal
  obtain ⟨p', new, hx, halike, henters, hok⟩ := h journal
  exact ⟨p', new, hanswer ▸ hx, ⟨halike.1.trans hfinal, rfl⟩, henters, hanswer ▸ hok⟩

/-- What was entered on the way may be used behind. -/
theorem entered (h : Follows v r bound x s out post) : Follows v r bound x s out
    fun a s' => post a s' ∧ ∃ new, Enters r bound (v.progress s) (v.progress s') new := by
  intro journal
  obtain ⟨s', new, hx, halike, henters, hok⟩ := h journal
  exact ⟨s', new, hx, halike, henters, fun a ha => ⟨(hok a ha).1, (hok a ha).2, new, henters⟩⟩

theorem last (hx : act s = .ok a s') (halike : v.Alike r s' t)
    (hholds : Holds r (v.progress s) (v.progress s'))
    (hpost : post a s') : Follows v r bound (Journaling.quietly act) s (.ok a t) post := by
  intro journal
  refine ⟨s', [], ?_, halike, hholds.enters, fun b hb => ⟨by simp [Closes], ?_⟩⟩
  · rw [Journaling.quietly, hx, List.append_nil]
    rfl
  · cases hb
    exact hpost

theorem pure (halike : v.Alike r s t) (hpost : post a s) :
    Follows v r bound (pure a) s (.ok a t) post := by
  have h : Follows v r bound (Journaling.quietly (Pure.pure a)) s (.ok a t) post :=
    last rfl halike (fun _ _ => rfl) hpost
  exact h

section
variable {f : α → Journaling σ β} {g : α → EStateM Fault σ β} {post : α → σ → Prop}
  {post' : β → σ → Prop} {e : Fault} {out : EStateM.Result Fault σ β} {y : EStateM Fault σ α}
  {b : α}

theorem bind (h : Follows v r bound x s (y t) post)
    (hf : ∀ a s' t', post a s' → v.Alike r s' t' → Follows v r bound (f a) s' (g a t') post') :
    Follows v r bound (x >>= f) s ((y >>= g) t) post' := by
  intro journal
  obtain ⟨s₁, new₁, hx, halike, henters, hok⟩ := h journal
  rw [Journaling.bind_apply, hx]
  cases hy : y t with
  | error e t₁ =>
    rw [bind_of_error hy]
    rw [hy] at halike
    exact ⟨s₁, new₁, rfl, halike, henters, fun b hb => by cases hb⟩
  | ok a t₁ =>
    rw [bind_of_ok hy]
    rw [hy] at hok halike
    obtain ⟨hclosed, hpost⟩ := hok a rfl
    obtain ⟨s₂, new₂, hrest, halike₂, henters₂, hok₂⟩ :=
      hf a s₁ t₁ hpost halike (journal ++ new₁)
    refine ⟨s₂, new₁ ++ new₂, ?_, halike₂, henters.trans hclosed henters₂, fun b hb => ?_⟩
    · rw [← List.append_assoc]
      exact hrest
    · exact ⟨hclosed.trans henters₂ (hok₂ b hb).1, (hok₂ b hb).2⟩

/-- A quiet step in front, whether or not there is one beside it. -/
theorem quiet (hx : act s = .ok a s')
    (hholds : Holds r (v.progress s) (v.progress s'))
    (h : Follows v r bound (f a) s' out post') :
    Follows v r bound (Journaling.quietly act >>= f) s out post' := by
  intro journal
  obtain ⟨s₁, new, hrest, halike, henters, hok⟩ := h journal
  have hnew : Enters r bound (v.progress s) (v.progress s₁) ([] ++ new) :=
    hholds.enters.trans (by simp [Closes]) henters
  refine ⟨s₁, new, ?_, halike, hnew, hok⟩
  rw [Journaling.bind_apply, Journaling.quietly, hx]
  exact hrest

theorem step {b : α} (hx : act s = .ok a s') (hy : y t = .ok b t')
    (hholds : Holds r (v.progress s) (v.progress s'))
    (h : Follows v r bound (f a) s' (g b t') post') :
    Follows v r bound (Journaling.quietly act >>= f) s ((y >>= g) t) post' := by
  rw [bind_of_ok hy]
  exact h.quiet hx hholds

/-- A step with an entry in front. -/
theorem enter {entry : σ → Entry} (hx : act s = .ok a s')
    (henters : Enters r bound (v.progress s) (v.progress s') [entry s'])
    (hentry : ∀ path, entry s' ≠ .chained path) (h : Follows v r bound (f a) s' out post') :
    Follows v r bound (Journaling.entering act entry >>= f) s out post' := by
  have hclosed : Closes r (v.progress s') [entry s'] := fun d _ hmem =>
    absurd (List.mem_singleton.1 hmem).symm (hentry d.path)
  intro journal
  obtain ⟨s₁, new, hrest, halike, henters', hok⟩ := h (journal ++ [entry s'])
  refine ⟨s₁, entry s' :: new, ?_, halike, henters.trans hclosed henters', fun b hb => ?_⟩
  · rw [Journaling.bind_apply, Journaling.entering, hx]
    rw [List.append_assoc] at hrest
    exact hrest
  · exact ⟨hclosed.trans henters' (hok b hb).1, (hok b hb).2⟩

/-- A step that fails, and so does all that would come after it. -/
theorem fault (hx : act s = .error e s') (halike : v.Alike r s' t)
    (hholds : Holds r (v.progress s) (v.progress s')) :
    Follows v r bound (Journaling.quietly act >>= f) s (.error e t) post' := by
  intro journal
  refine ⟨s', [], ?_, halike, hholds.enters, fun b hb => by cases hb⟩
  rw [Journaling.bind_apply, Journaling.quietly, hx, List.append_nil]
  rfl

theorem last_fault (hx : act s = .error e s') (halike : v.Alike r s' t)
    (hholds : Holds r (v.progress s) (v.progress s')) :
    Follows v r bound (Journaling.quietly act) s (.error e t) post := by
  have h : Follows v r bound (Journaling.quietly act >>= Pure.pure) s (.error e t) post :=
    fault hx halike hholds
  rwa [bind_pure] at h

/-- One step of a resolution after the other, with what the first one entered. -/
theorem next {x : Journaling Progress α} {f : α → Journaling Progress β} {y : Resolving α}
    {g : α → Resolving β} {p q : Progress} {post : α → Progress → Prop}
    {post' : β → Progress → Prop} (h : Follows .whole r bound' x p (y q) post) (hle : bound ≤ bound')
    (hf : ∀ a p' q' new, post a p' → Enters r bound' p p' new → p'.Alike r q' →
      Follows .whole r bound (f a) p' (g a q') post') :
    Follows .whole r bound (x >>= f) p ((y >>= g) q) post' :=
  (h.entered.mono hle fun _ _ h => h).bind fun a p' q' ⟨hpost, new, hnew⟩ halike =>
    hf a p' q' new hpost hnew halike.1

/-- An operator is taken ahead, and then it is dealt with. -/
theorem chained {left : Cursor} (hl : r.Contains left)
    (hfresh : ((v.progress s).mark left).resolved = false) (hx : act s = .ok a s')
    (hholds : Holds r (v.progress s) (v.progress s'))
    (h : Follows v r (2 * left.path.length + 1) (f a) s' out fun _ s'' =>
      ((v.progress s'').mark left).resolved = true) :
    Follows v r (2 * left.path.length)
      (Journaling.entering act (fun _ => .chained left.path) >>= f) s out fun _ _ => True := by
  intro journal
  obtain ⟨s₁, new, hrest, halike, henters, hok⟩ := h (journal ++ [.chained left.path])
  -- all that is done with the operator is entered further down
  have hnot : .chained left.path ∉ new := fun hmem => by
    have := henters.level _ hmem
    simp only [Entry.level] at this
    omega
  have hleft : ∀ d, r.Contains d → .chained d.path ∈ .chained left.path :: new → d ≠ left →
      .chained d.path ∈ new := fun d hd hmem hne =>
    (List.mem_cons.1 hmem).resolve_left fun heq => hne (hd.eq_of_path hl (Entry.chained.inj heq))
  refine ⟨s₁, .chained left.path :: new, ?_, halike, ⟨?_, fun d hd => ?_, fun d hd hmem => ?_,
    fun d hd => ?_⟩, fun b hb => ⟨fun d hd hmem => ?_, trivial⟩⟩
  · rw [Journaling.bind_apply, Journaling.entering, hx]
    rw [List.append_assoc] at hrest
    exact hrest
  · exact List.forall_mem_cons.2 ⟨Nat.le_refl _, fun e he => Nat.le_of_succ_le (henters.level e he)⟩
  · exact .other rfl (hholds d hd ▸ henters.course d hd)
  · by_cases heq : d = left
    · rw [heq, hfresh]
    · have hres := henters.fresh d hd (hleft d hd hmem heq)
      rwa [← (Status.mk.inj (hholds d hd)).1]
  · by_cases heq : d = left
    · have hnone := List.count_eq_zero.2 hnot
      rw [heq, List.count_cons_self]
      omega
    · rw [List.count_cons_of_ne fun h => heq (hl.eq_of_path hd (Entry.chained.inj h)).symm]
      exact henters.once d hd
  · by_cases heq : d = left
    · rw [heq]
      exact (hok b hb).2
    · exact (hok b hb).1 d hd (hleft d hd hmem heq)

end

end Follows

end

end SyntaxSpans
