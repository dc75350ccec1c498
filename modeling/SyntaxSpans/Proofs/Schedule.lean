import SyntaxSpans.Placement.Session
import SyntaxSpans.Proofs.Resolution

/-!
# Schedules

A schedule is a list of nodes that are resolved one after the other. `Midway` is what holds between
two of its calls: nothing is under way, and just what the earlier calls drew on is resolved. At the
end of a schedule every node therefore stands where `Completes` says, and this depends on the members
of the schedule but not on their order (`Completes.unique`).
-/

namespace SyntaxSpans

namespace Progress

/-- Nothing below `r` has been resolved, or stands elsewhere than where it was reported. -/
def Pristine (r : Cursor) (p : Progress) : Prop :=
  ∀ d, r.Contains d → (p.mark d).placement = d.node.placement ∧ (p.mark d).resolved = false

/-- The nodes `before` have been resolved, and with them just what they draw on. -/
structure Midway (l : Locator) (r : Cursor) (before : List Cursor) (p : Progress) : Prop where
  faithful : p.Faithful l r []
  done : ∀ c ∈ before, (p.mark c).resolved = true
  only : ∀ d, r.Contains d → (p.mark d).resolved = true → ∃ c ∈ before, c.Draws d

/-- What the nodes of a schedule draw on stands at its final place, and all else where it was
reported. -/
structure Completes (l : Locator) (r : Cursor) (cs : List Cursor) (p : Progress) : Prop where
  drawn : ∀ d, r.Contains d → (∃ c ∈ cs, c.Draws d) → l.final? d = some (p.mark d).placement
  rest : ∀ d, r.Contains d → (¬ ∃ c ∈ cs, c.Draws d) → (p.mark d).placement = d.node.placement

section
variable {l : Locator} {r c : Cursor} {before cs cs' : List Cursor} {p p' : Progress}

theorem Midway.start (h : p.Pristine r) : Midway l r [] p := by
  have hnone : ∀ d, r.Contains d → (p.mark d).resolved ≠ true := by
    intro d hd
    rw [(h d hd).2]
    exact Bool.false_ne_true
  exact ⟨⟨fun d hd _ => (h d hd).1, fun d hd hr => absurd hr (hnone d hd),
    fun d hd hr => absurd hr (hnone d hd)⟩, by simp, fun d hd hr => absurd hr (hnone d hd)⟩

theorem contains_of_draws (hc : r.Contains c) {d : Cursor} (h : c.Draws d) : r.Contains d := by
  induction h with
  | refl => exact hc
  | down _ he ih => exact contains_operand ih he

/-- What is resolved draws on resolved nodes only. -/
theorem Midway.resolved_of_draws (h : Midway l r before p) (hr : ∀ c ∈ before, r.Contains c)
    (hc : c ∈ before) {d : Cursor} (hd : c.Draws d) : (p.mark d).resolved = true := by
  induction hd with
  | refl => exact h.done c hc
  | down hd he ih =>
    exact h.faithful.closed _ (contains_of_draws (hr c hc) hd) ih List.not_mem_nil _ he

theorem Midway.completes (h : Midway l r cs p) (hr : ∀ c ∈ cs, r.Contains c) :
    Completes l r cs p := by
  constructor
  · rintro d hd ⟨c, hc, hdraw⟩
    exact h.faithful.final d hd (h.resolved_of_draws hr hc hdraw) List.not_mem_nil
  · intro d hd hrest
    refine h.faithful.fresh d hd (Bool.eq_false_iff.2 fun hres => ?_)
    exact hrest (h.only d hd hres)

/-- **The order of a schedule does not matter**, nor how often it names a node. -/
theorem Completes.unique (h : Completes l r cs p) (h' : Completes l r cs' p')
    (hmem : ∀ c, c ∈ cs ↔ c ∈ cs') {d : Cursor} (hd : r.Contains d) :
    (p.mark d).placement = (p'.mark d).placement := by
  have hiff : (∃ c ∈ cs, c.Draws d) ↔ ∃ c ∈ cs', c.Draws d := by simp only [hmem]
  by_cases hdraw : ∃ c ∈ cs, c.Draws d
  · exact Option.some.inj ((h.drawn d hd hdraw).symm.trans (h'.drawn d hd (hiff.1 hdraw)))
  · rw [h.rest d hd hdraw, h'.rest d hd fun h => hdraw (hiff.2 h)]

/-- A node that has been resolved takes its place at the end of a schedule. -/
theorem Midway.reached (hb : ∀ d ∈ before, r.Contains d) (h : Midway l r before p)
    (h' : Reaches l r [] c p p') : Midway l r (before ++ [c]) p' := by
  refine ⟨h'.faithful, List.forall_mem_append.2 ⟨fun d hd => ?_, ?_⟩, fun d hd hres => ?_⟩
  · exact h'.keeps.resolved d (hb d hd) (h.done d hd)
  · exact List.forall_mem_singleton.2 h'.done
  · rcases h'.adds d hd hres with hres | hdraw
    · obtain ⟨e, he, hdraw⟩ := h.only d hd hres
      exact ⟨e, List.mem_append_left _ he, hdraw⟩
    · exact ⟨c, by simp, hdraw⟩

theorem Midway.resolve (hc : r.Contains c) (hl : c.path = [] ∨ (p.mark c).linked = true)
    (hb : ∀ d ∈ before, r.Contains d) (h : Midway l r before p) :
    Outcome (l.resolve c) p (fun _ p' => Midway l r (before ++ [c]) p' ∧ Keeps r p p')
      (fun _ _ => l.final? c = none) :=
  (Locator.resolve_outcome hc hl (by simp) h.faithful).imp
    (fun _ _ h' => ⟨h.reached hb h', h'.keeps⟩) fun _ _ hf => hf

/-- A node that is resolved first takes all that it draws on to its final place. -/
theorem Pristine.placed (h : p.Pristine r) (hc : r.Contains c)
    (hl : c.path = [] ∨ (p.mark c).linked = true) (hrun : l.resolve c p = .ok () p') {d : Cursor}
    (hd : c.Draws d) : l.final? d = some (p'.mark d).placement := by
  have hstart : p.Midway l r [] := .start h
  have hmid := ((hstart.resolve hc hl (by simp)).of_ok hrun).1
  exact (hmid.completes (by simpa using hc)).drawn d (contains_of_draws hc hd) ⟨c, by simp, hd⟩

/-- A node that has a final place can be resolved first. -/
theorem Pristine.resolve_ok (h : p.Pristine r) (hc : r.Contains c)
    (hl : c.path = [] ∨ (p.mark c).linked = true) (hfinal : l.final? c ≠ none) :
    ∃ p', l.resolve c p = .ok () p' := by
  cases hrun : l.resolve c p with
  | ok u p' => exact ⟨p', rfl⟩
  | error e p' => exact absurd (((Midway.start h).resolve hc hl (by simp)).of_error hrun) hfinal

theorem pristine_empty (r : Cursor) : Pristine r {} := fun d _ => by simp [mark]

/-- **A whole schedule** resolves what its nodes draw on, and faults only at a node that has no final
place. -/
theorem Midway.resolveAll (hr : ∀ c ∈ cs, r.Contains c)
    (hl : ∀ c ∈ cs, c.path = [] ∨ (p.mark c).linked = true) (h : Midway l r [] p) :
    Outcome (cs.forM l.resolve) p (fun _ p' => Midway l r cs p')
      (fun _ _ => ∃ c ∈ cs, l.final? c = none) := by
  refine (Outcome.forM (fun before p' => Midway l r before p' ∧ Keeps r p p')
    (fun before c after q hcs hq => ?_) ⟨h, .refl⟩).imp (fun _ _ h => h.1) fun _ _ h => h
  obtain ⟨hmid, hkeep⟩ := hq
  have hc : c ∈ cs := by simp [hcs]
  refine (hmid.resolve (hr c hc) ((hl c hc).imp id (hkeep.linked c (hr c hc)))
    fun d hd => hr d (by simp [hcs, hd])).imp (fun _ q' h' => ⟨h'.1, hkeep.trans h'.2⟩)
    fun _ _ hf => ⟨c, hc, hf⟩

theorem Midway.final_ne_none (h : Midway l r cs p) (hr : ∀ c ∈ cs, r.Contains c) (hc : c ∈ cs) :
    l.final? c ≠ none := by
  rw [h.faithful.final c (hr c hc) (h.done c hc) List.not_mem_nil]
  simp

end

end Progress

/-! ## Schedules of a session -/

namespace Session

open Progress

/-- Resolves nodes one after the other, up to the first fault. -/
def resolveAll (s : Session) (cs : List Cursor) : Session × Except Fault Unit :=
  s.run (cs.forM s.locator.resolve)

/-- A session at its beginning, with the parent links of all nodes set. -/
def linked (l : Locator) (tree : Node) : Session := (Session.mk l tree {}).linkAll.1

section
variable {l : Locator} {tree : Node} {cs : List Cursor}

@[simp] theorem locator_linked : (linked l tree).locator = l := by
  unfold linked linkAll run
  split <;> rfl

/-- Linking touches neither places nor resolutions, and reaches every node of the walk. -/
theorem linkAll_outcome (tree : Node) :
    Outcome ((Cursor.root tree).walk fun c => do
        if c.path.isEmpty then pure () else Resolving.link c
        return true) {}
      (fun _ p => (∀ d, (Cursor.root tree).Contains d →
          (p.mark d).placement = d.node.placement ∧ (p.mark d).resolved = false) ∧
        ∀ c ∈ (Cursor.root tree).preorder, c.path = [] ∨ (p.mark c).linked = true)
      (fun _ _ => False) := by
  rw [Cursor.walk_eq_forM (fun c => if c.path.isEmpty then pure () else Resolving.link c)
    fun c => by dsimp only; split <;> rfl]
  refine (Outcome.forM (fun (before : List Cursor) (p : Progress) =>
      (∀ d, (Cursor.root tree).Contains d →
        (p.mark d).placement = d.node.placement ∧ (p.mark d).resolved = false) ∧
      ∀ c ∈ before, c.path = [] ∨ (p.mark c).linked = true)
    (fun before c after p hcs hp => ?_) ⟨fun d _ => ?_, by simp⟩)
  · have hc : (Cursor.root tree).Contains c :=
      Cursor.contains_of_mem_preorder (by rw [hcs]; simp)
    split
    · next hroot =>
      refine ⟨hp.1, List.forall_mem_append.2 ⟨hp.2, ?_⟩⟩
      exact List.forall_mem_singleton.2 (Or.inl (List.isEmpty_iff.1 hroot))
    · rw [outcome_link]
      refine ⟨fun d hd => ?_, List.forall_mem_append.2 ⟨fun d hd => ?_, ?_⟩⟩
      · rw [mark_update hc hd p fun m => { m with linked := true }]
        split <;> exact hp.1 d hd
      · rw [mark_setMark]
        split
        · exact Or.inr rfl
        · exact hp.2 d hd
      · rw [List.forall_mem_singleton, mark_setMark_self]
        exact Or.inr rfl
  · simp [mark]

theorem linked_progress (l : Locator) (tree : Node) :
    (∀ d, (Cursor.root tree).Contains d →
      ((linked l tree).progress.mark d).placement = d.node.placement ∧
        ((linked l tree).progress.mark d).resolved = false) ∧
    ∀ c ∈ (Cursor.root tree).preorder,
      c.path = [] ∨ ((linked l tree).progress.mark c).linked = true := by
  have h := linkAll_outcome tree
  unfold linked linkAll run
  split
  · next p hp => exact h.of_ok hp
  · next hp => exact (h.of_error hp).elim

end

end Session

end SyntaxSpans
