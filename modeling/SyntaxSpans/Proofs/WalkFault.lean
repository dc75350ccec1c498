import SyntaxSpans.Proofs.FirstFault
import SyntaxSpans.Proofs.Pass

/-!
# The fault that an annotation ends in

When the walk comes to a node, either the node has been resolved for the sake of a node above it, or
nothing at or below it has been (`Midway.untouched`): the walk comes from above, and what a node draws
on hangs together. So every node is resolved with its own first fault, and the annotation ends in that
of the first node that has one (`annotate_error_iff`).
-/

namespace SyntaxSpans

/-! ## Above and in front -/

namespace Cursor

section
variable {r c d e : Cursor} {before after : List Cursor}

/-- The node above a node of the tree is found from its path. -/
theorem parent_unique {name name' : String} {d' : Cursor} (hd : r.Contains d) (hd' : r.Contains d')
    (he : e ∈ d.nodesIn name) (he' : e ∈ d'.nodesIn name') : d = d' := by
  obtain ⟨i, hi⟩ := path_of_mem_nodesIn he
  obtain ⟨j, hj⟩ := path_of_mem_nodesIn he'
  exact hd.eq_of_path hd' (List.cons.inj (hi.symm.trans hj)).2

/-- What the walk has come to is above all that it has not come to. -/
theorem mem_before_of_contains (hroot : r.path = []) (h : r.preorder = before ++ after)
    (hc : r.Contains c) (hd : c.Contains d) (hmem : d ∈ before) : c ∈ before := by
  induction hd with
  | refl => exact hmem
  | down hd' he ih =>
    obtain ⟨b, a, rfl⟩ := List.append_of_mem hmem
    obtain ⟨index, hpath⟩ := path_of_mem_nodesIn he
    rw [List.append_assoc, List.cons_append] at h
    rcases mem_children_of_preorder h with hroot' | ⟨f, hf, hchild⟩
    · rw [hroot', hroot] at hpath
      cases hpath
    · obtain ⟨name, -, hin⟩ := List.mem_flatMap.1 hchild
      have hfr : r.Contains f := contains_of_mem_preorder (by rw [h]; simp [hf])
      obtain rfl := parent_unique (hc.trans hd') hfr he hin
      exact ih (List.mem_append_left _ hf)

/-- A node that draws on something below `c` draws on `c`, or stands below `c` itself. -/
theorem draws_or_contains (he : r.Contains e) (hc : r.Contains c) (hdraw : e.Draws d)
    (hd : c.Contains d) : e.Draws c ∨ c.Contains e := by
  induction hdraw with
  | refl => exact Or.inr hd
  | down hdraw' hop ih =>
    cases hd with
    | refl => exact Or.inl (hdraw'.down hop)
    | down hd' hin =>
      obtain ⟨name, -, hchild⟩ := child_of_mem_operands hop
      obtain rfl := parent_unique (Progress.contains_of_draws he hdraw') (hc.trans hd')
        (mem_nodesIn_of_child? hchild) hin
      exact ih hd'

end

end Cursor

/-! ## One node of the walk -/

namespace Progress

variable {l : Locator} {r c : Cursor} {before after : List Cursor} {p : Progress}

/-- **What the walk finds** at the next node: it has been resolved, or nothing below it has. -/
theorem Midway.untouched (hroot : r.path = []) (h : Midway l r before p)
    (hpre : r.preorder = before ++ c :: after) : (p.mark c).resolved = true ∨ p.Untouched c := by
  obtain ⟨hc, hbefore, -⟩ := Cursor.next_of_preorder hroot hpre
  by_cases hu : p.Untouched c
  · exact Or.inr hu
  · simp only [Untouched, Classical.not_forall, Bool.not_eq_false] at hu
    obtain ⟨d, hd, hres⟩ := hu
    obtain ⟨e, he, hdraw⟩ := h.only d (hc.trans hd) hres
    rcases Cursor.draws_or_contains (hbefore e he) hc hdraw hd with hdraw' | habove
    · exact Or.inl (h.resolved_of_draws hbefore he hdraw')
    · exact Or.inl (h.done c (Cursor.mem_before_of_contains hroot hpre hc habove he))

end Progress

/-- The fault that the walk ends in when it comes to the node: that of its pattern, or the first one of
its resolution. -/
def Locator.visitFault? (l : Locator) (c : Cursor) : Option Fault :=
  c.introduced.fault.or (l.fault? c)

/-- A node that binds nothing and draws on nothing has no fault but its own. -/
theorem Locator.visitFault?_of_operands {l : Locator} {c : Cursor} (hbinds : c.introduced.fault = none)
    (hdraws : c.operands = []) : l.visitFault? c = l.ownFault? c := by
  rw [visitFault?, hbinds, fault?_of_operands hdraws, Option.none_or]

/-- The walk passes the nodes that have a place and bind names by sound patterns. -/
theorem Locator.visitFault?_eq_none_iff {l : Locator} {c : Cursor} :
    l.visitFault? c = none ↔ l.final? c ≠ none ∧ c.introduced.fault = none := by
  rw [visitFault?, Option.or_eq_none_iff, fault?_eq_none_iff, and_comm]

namespace Annotation

section
variable {l : Locator} {r c : Cursor} {a : Annotation} {before after : List Cursor}

theorem resolve_next_fault {p : Progress} (hc : r.Contains c)
    (hl : c.path = [] ∨ (p.mark c).linked = true) (h : p.Faithful l r [])
    (hu : (p.mark c).resolved = true ∨ p.Untouched c) :
    Outcome (l.resolve c) p (fun _ _ => True) (fun e _ => l.fault? c = some e) := by
  rcases hu with hres | hu
  · rw [Locator.resolve, outcome_bind, outcome_mark, hres, if_pos rfl, outcome_pure]
    trivial
  · exact (Locator.resolve_fault hc hl (by simp) h (Progress.ready_of_untouched hu) (hu c .refl)).imp
      (fun _ _ _ => trivial) fun _ _ hf => hf

theorem step_fault (hroot : r.path = []) (hpre : r.preorder = before ++ c :: after)
    (h : Midway l r before a) :
    Outcome (step l c) a (fun _ _ => True) (fun e _ => l.visitFault? c = some e) := by
  have hnext := Cursor.next_of_preorder hroot hpre
  refine step_of_linked hnext h fun a₁ hmid _ hscopes hlinked => ?_
  rw [stepLinked, outcome_bind, Locator.visitFault?]
  refine (enterScope_outcome (h.outerScope hnext hscopes)).imp (fun _ a₂ h₂ => ?_)
    fun _ _ hf => by rw [hf]; rfl
  obtain ⟨hprogress, hfault, -, -⟩ := h₂
  rw [hfault, Option.none_or, outcome_bind, outcome_resolving, hprogress]
  exact (resolve_next_fault hnext.contains hlinked hmid.faithful (hmid.untouched hroot hpre)).imp
    (fun _ _ _ => trivial) fun _ _ hf => hf

theorem Midway.quiet (hb : ∀ d ∈ before, r.Contains d) (h : Midway l r before a) :
    ∀ d ∈ before, l.visitFault? d = none := by
  exact fun d hd => Locator.visitFault?_eq_none_iff.2 ⟨h.progress.final_ne_none hb hd, h.sound d hd⟩

end

section
variable {l : Locator} {tree : Node} {a : Annotation}

/-- **The walk** ends in the fault of the first node that has one. -/
theorem pass_fault (h : a.progress.Midway l (.root tree) []) :
    Outcome (pass l tree) a (fun _ _ => True)
      (fun e _ => (Cursor.root tree).preorder.findSome? l.visitFault? = some e) := by
  rw [pass, Cursor.walk_eq_forM (step l) (visit_eq l), outcome_bind]
  refine (Outcome.forM (fun (before : List Cursor) (a : Annotation) =>
    Midway l (.root tree) before a) (fun before c after a hcs ha => ?_)
    ⟨h, by simp, by simp⟩).imp (fun _ _ _ => trivial) fun _ _ hf => hf
  have hnext := Cursor.next_of_preorder rfl hcs
  refine ((step_outcome hnext ha).and (step_fault rfl hcs ha)).imp (fun _ _ h => h.1.1)
    fun e _ hf => ?_
  rw [hcs, List.findSome?_append, List.findSome?_eq_none_iff.2 (ha.quiet hnext.visited),
    Option.none_or, List.findSome?_cons, hf.2]

end

end Annotation

/-! ## Annotating a whole tree -/

/-- The first fault of the walk over a tree. -/
def Locator.firstFault? (l : Locator) (tree : Node) : Option Fault :=
  (Cursor.root tree).preorder.findSome? l.visitFault?

section
variable {source : Text} {window : Window} {tree : Node} {fault : Fault}

theorem firstFault?_of_ok {a : Annotated} (h : annotate source window tree = .ok a) :
    (Locator.ofSource source window).firstFault? tree = none :=
  List.findSome?_eq_none_iff.2 fun c hc =>
    Locator.visitFault?_eq_none_iff.2 (annotate_ok_iff.1 ⟨a, h⟩ c hc)

/-- **The fault of an annotation** is the first one of its walk. -/
theorem annotate_error_iff : annotate source window tree = .error fault ↔
    (Locator.ofSource source window).firstFault? tree = some fault := by
  have hfirst : ∀ {e}, annotate source window tree = .error e →
      (Locator.ofSource source window).firstFault? tree = some e := by
    intro e h
    have hstart := Annotation.midway_start (.ofSource source window) tree
    have hpass := Annotation.pass_fault hstart
    unfold annotate Annotation.run at h
    cases hp : Annotation.pass (.ofSource source window) tree {} with
    | ok u b => rw [hp] at h; cases h
    | error e' b =>
      rw [hp] at h
      cases h
      exact hpass.of_error hp
  constructor
  · exact hfirst
  · intro h
    cases ha : annotate source window tree with
    | ok a => rw [firstFault?_of_ok ha] at h; cases h
    | error e =>
      rw [hfirst ha, Option.some.injEq] at h
      rw [h]

theorem annotate_ok_iff_firstFault? : (∃ a, annotate source window tree = .ok a) ↔
    (Locator.ofSource source window).firstFault? tree = none := by
  constructor
  · rintro ⟨a, ha⟩
    exact firstFault?_of_ok ha
  · intro h
    cases ha : annotate source window tree with
    | ok a => exact ⟨a, rfl⟩
    | error e =>
      rw [annotate_error_iff.1 ha] at h
      cases h

/-- A root that binds names by an unsound pattern ends the walk at once. -/
theorem annotate_unsound_root (h : (Cursor.root tree).introduced.fault = some fault) :
    annotate source window tree = .error fault := by
  rw [annotate_error_iff, Locator.firstFault?, Cursor.preorder_eq, List.findSome?_cons,
    Locator.visitFault?, h]
  rfl

end

end SyntaxSpans
