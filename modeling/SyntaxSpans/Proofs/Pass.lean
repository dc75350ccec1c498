import SyntaxSpans.Annotation
import SyntaxSpans.Proofs.Schedule

/-!
# The walk of the annotation

The annotation links, scopes and resolves one node after the other. To the resolution this is a
schedule like any other, so at the end the nodes stand where `Progress.Completes` says. `pass_outcome`
holds from any annotation that has resolved nothing yet, whatever links, scopes and records it has
from an earlier walk. A walk ends in a fault only at a node that has no final place, or that binds
names by a pattern that is not sound (`pass_ok_iff`).
-/

namespace SyntaxSpans

namespace Progress

section
variable {l : Locator} {r c : Cursor} {before cs : List Cursor} {p : Progress}

theorem Midway.link (hc : r.Contains c) (hb : ∀ d ∈ before, r.Contains d) (h : Midway l r before p) :
    Midway l r before (p.setMark c { p.mark c with linked := true }) := by
  have hsame : ∀ d, r.Contains d →
      ((p.setMark c { p.mark c with linked := true }).mark d).resolved = (p.mark d).resolved := by
    intro d hd
    rw [mark_update hc hd p fun m => { m with linked := true }]
    split <;> rfl
  exact ⟨h.faithful.link hc, fun d hd => hsame d (hb d hd) ▸ h.done d hd,
    fun d hd hres => h.only d hd (hsame d hd ▸ hres)⟩

theorem Midway.record (h : Midway l r before p) (records : List Record) :
    Midway l r before (p.record records) :=
  ⟨h.faithful.of_same fun _ _ => ⟨rfl, rfl⟩, h.done, h.only⟩

end

end Progress

namespace Annotation

section
variable {l : Locator} {r c : Cursor} {a : Annotation} {before : List Cursor}

/-- The nodes `before` have been visited. -/
structure Midway (l : Locator) (r : Cursor) (before : List Cursor) (a : Annotation) : Prop where
  progress : a.progress.Midway l r before
  inScope : ∀ c ∈ before, (a.scopeAt? c.path).isSome = true
  sound : ∀ c ∈ before, c.introduced.fault = none

theorem outcome_resolving {α : Type} {step : Resolving α} {post : α → Annotation → Prop}
    {failed : Fault → Annotation → Prop} :
    Outcome (resolving step) a post failed ↔ Outcome step a.progress
      (fun x p => post x { a with progress := p }) (fun e p => failed e { a with progress := p }) := by
  unfold Outcome resolving
  cases step a.progress <;> rfl

theorem scopeAt?_insert (scopes : Std.TreeMap Path ScopeId) (path other : Path) (i : ScopeId) :
    (scopes.insert path i)[other]? = if path = other then some i else scopes[other]? := by
  simp [Std.TreeMap.getElem?_insert]

/-- A node of a parent with a scope gets one, and keeps those of all others. The only fault is that
of its pattern. -/
theorem enterScope_outcome (h : c.path = [] ∨ (a.outerScope? c.path).isSome = true) :
    Outcome (enterScope c) a
      (fun _ a' => a'.progress = a.progress ∧ c.introduced.fault = none ∧
        (a'.scopeAt? c.path).isSome = true ∧
        ∀ path, (a.scopeAt? path).isSome = true → (a'.scopeAt? path).isSome = true)
      (fun e _ => c.introduced.fault = some e) := by
  -- a node without a scope around it is the root, which opens one
  obtain ⟨f, i, henter⟩ : ∃ f i,
      a.forest.enter c.kind c.path.isEmpty (a.outerScope? c.path) = (f, some i) := by
    unfold Forest.enter
    split
    · exact ⟨_, _, rfl⟩
    · next hroot =>
      split
      · exact ⟨_, _, rfl⟩
      · have hpath : c.path ≠ [] := fun hp => hroot (by simp [hp])
        obtain ⟨i, hi⟩ := Option.isSome_iff_exists.1 (h.resolve_left hpath)
        exact ⟨_, i, by rw [hi]⟩
  have hnode : a.forest.enterNode c c.path.isEmpty (a.outerScope? c.path) =
      ((f.bindIntroduced i c).1, some i, c.introduced.fault) := by
    simp only [Forest.enterNode, henter]
    rfl
  rw [enterScope, outcome_bind, outcome_get, hnode]
  simp only [outcome_bind, outcome_set]
  split
  · next fault hf => rw [outcome_throw, hf]
  · next hf =>
    rw [outcome_pure]
    refine ⟨rfl, hf, ?_, fun path hp => ?_⟩
    · simp [scopeAt?]
    · unfold scopeAt? at hp ⊢
      rw [scopeAt?_insert]
      split
      · rfl
      · exact hp

theorem Midway.outerScope (h : Midway l r before a) (hnext : r.Next before c) {a' : Annotation}
    (hscopes : a'.scopes = a.scopes) : c.path = [] ∨ (a'.outerScope? c.path).isSome = true := by
  refine hnext.parent.imp id fun ⟨e, he, hce⟩ => ?_
  obtain ⟨name, -, hin⟩ := List.mem_flatMap.1 hce
  obtain ⟨index, hp⟩ := Cursor.path_of_mem_nodesIn hin
  rw [hp, outerScope?, scopeAt?, hscopes]
  exact h.inScope e he

/-- What is done at one node of the walk. -/
def step (l : Locator) (c : Cursor) : Annotating Unit := do
  if c.path.isEmpty then pure () else resolving (Resolving.link c)
  enterScope c
  resolving (l.resolve c)
  modify fun a => { a with visited := a.visited + 1 }

theorem visit_eq (l : Locator) (c : Cursor) : visit l c = (do step l c; pure true) := by
  unfold visit step
  split <;> simp only [bind_assoc]

/-- What is left to do at a node once it is linked. -/
def stepLinked (l : Locator) (c : Cursor) : Annotating Unit := do
  enterScope c
  resolving (l.resolve c)
  modify fun a => { a with visited := a.visited + 1 }

/-- Linking the node leaves the schedule and the scopes as they are. -/
theorem step_of_linked {post : Unit → Annotation → Prop} {failed : Fault → Annotation → Prop}
    (hnext : r.Next before c) (h : Midway l r before a)
    (hrest : ∀ a' : Annotation, a'.progress.Midway l r before → a.progress.Keeps r a'.progress →
      a'.scopes = a.scopes → (c.path = [] ∨ (a'.progress.mark c).linked = true) →
      Outcome (stepLinked l c) a' post failed) :
    Outcome (step l c) a post failed := by
  rw [step]
  split
  · next hroot => exact hrest a h.progress .refl rfl (Or.inl (List.isEmpty_iff.1 hroot))
  · rw [outcome_bind, outcome_resolving, outcome_link]
    exact hrest _ (h.progress.link hnext.contains hnext.visited) (Progress.keeps_link hnext.contains) rfl
      (Or.inr (by rw [Progress.mark_setMark_self]))

/-- One node of the walk. It stays linked, and so do those before. -/
theorem step_outcome (hnext : r.Next before c) (h : Midway l r before a) :
    Outcome (step l c) a
      (fun _ a' => Midway l r (before ++ [c]) a' ∧ a.progress.Keeps r a'.progress ∧
        (c.path = [] ∨ (a'.progress.mark c).linked = true))
      (fun _ _ => l.final? c = none ∨ c.introduced.fault ≠ none) := by
  refine step_of_linked hnext h fun a₁ hmid hkeeps hscopes hlinked => ?_
  have hsame : ∀ path, a₁.scopeAt? path = a.scopeAt? path := fun path => by
    rw [scopeAt?, hscopes]; rfl
  rw [stepLinked, outcome_bind]
  refine (enterScope_outcome (h.outerScope hnext hscopes)).imp (fun _ a₂ h₂ => ?_)
    fun e _ hf => Or.inr (by rw [hf]; exact Option.some_ne_none e)
  obtain ⟨hprogress, hfault, hscope, hkeep⟩ := h₂
  rw [outcome_bind, outcome_resolving, hprogress]
  refine (hmid.resolve hnext.contains hlinked hnext.visited).imp (fun _ p h₃ => ?_) fun _ _ hf => Or.inl hf
  rw [outcome_modify]
  refine ⟨⟨h₃.1, List.forall_mem_append.2 ⟨fun d hd => ?_, ?_⟩,
    List.forall_mem_append.2 ⟨h.sound, ?_⟩⟩, hkeeps.trans h₃.2,
    hlinked.imp id (h₃.2.linked c hnext.contains)⟩
  · exact hkeep d.path ((hsame d.path).symm ▸ h.inScope d hd)
  · exact List.forall_mem_singleton.2 hscope
  · exact List.forall_mem_singleton.2 hfault

end

section
variable {l : Locator} {tree : Node} {a b : Annotation}

/-- **The walk** visits every node of the tree and links it, from any annotation that has resolved nothing
yet. -/
theorem pass_outcome (h : a.progress.Midway l (.root tree) []) :
    Outcome (pass l tree) a
      (fun _ b => Midway l (.root tree) (Cursor.root tree).preorder b ∧
        ∀ c ∈ (Cursor.root tree).preorder, c.path = [] ∨ (b.progress.mark c).linked = true)
      (fun _ _ => ∃ c ∈ (Cursor.root tree).preorder,
        l.final? c = none ∨ c.introduced.fault ≠ none) := by
  rw [pass, Cursor.walk_eq_forM (step l) (visit_eq l), outcome_bind]
  refine (Outcome.forM (fun (before : List Cursor) (a : Annotation) =>
    Midway l (.root tree) before a ∧ ∀ c ∈ before, c.path = [] ∨ (a.progress.mark c).linked = true)
    (fun before c after a hcs ha => ?_) ⟨⟨h, by simp, by simp⟩, by simp⟩).imp (fun _ b hb => ?_)
    fun _ _ hf => hf
  · have hnext := Cursor.next_of_preorder rfl hcs
    refine (step_outcome hnext ha.1).imp (fun _ a' ha' => ⟨ha'.1, ?_⟩)
      fun _ _ hf => ⟨c, by rw [hcs]; simp, hf⟩
    refine List.forall_mem_append.2 ⟨fun d hd => ?_, List.forall_mem_singleton.2 ha'.2.2⟩
    exact (ha.2 d hd).imp id (ha'.2.1.linked d (hnext.visited d hd))
  · rw [outcome_bind, outcome_get, outcome_resolving, outcome_record]
    exact ⟨⟨hb.1.progress.record _, hb.1.inScope, hb.1.sound⟩, hb.2⟩

/-- **When the walk comes to its end**: every node that it visits has a final place, and binds names by
sound patterns. -/
theorem pass_ok_iff (h : a.progress.Midway l (.root tree) []) :
    (∃ b, pass l tree a = .ok () b) ↔
      ∀ c ∈ (Cursor.root tree).preorder, l.final? c ≠ none ∧ c.introduced.fault = none := by
  constructor
  · rintro ⟨b, hb⟩ c hc
    have hmid := ((pass_outcome h).of_ok hb).1
    exact ⟨hmid.progress.final_ne_none (fun _ => Cursor.contains_of_mem_preorder) hc,
      hmid.sound c hc⟩
  · intro hall
    cases hpass : pass l tree a with
    | ok u b => exact ⟨b, rfl⟩
    | error e b =>
      obtain ⟨c, hc, hf⟩ := (pass_outcome h).of_error hpass
      exact hf.elim (fun hf => absurd hf (hall c hc).1) fun hf => absurd (hall c hc).2 hf

theorem completes_of_pass (h : a.progress.Midway l (.root tree) []) (hb : pass l tree a = .ok () b) :
    b.progress.Completes l (.root tree) (Cursor.root tree).preorder :=
  ((pass_outcome h).of_ok hb).1.progress.completes fun _ => Cursor.contains_of_mem_preorder

theorem midway_start (l : Locator) (tree : Node) :
    ({} : Annotation).progress.Midway l (.root tree) [] :=
  .start fun d _ => by simp [Progress.mark]

end

end Annotation

/-! ## Annotating a whole tree -/

section
variable {source : Text} {window : Window} {tree : Node}

/-- An annotation is what its walk has found out, and the tree with the places that it has found. -/
theorem annotate_ok {a : Annotated} : annotate source window tree = .ok a ↔
    Annotation.pass (.ofSource source window) tree {} = .ok () a.annotation ∧
      a.tree = a.annotation.progress.place tree := by
  unfold annotate Annotation.run
  cases hp : Annotation.pass (.ofSource source window) tree {} with
  | ok u b =>
    obtain ⟨t, b'⟩ := a
    simp only [Except.ok.injEq, Annotated.mk.injEq, EStateM.Result.ok.injEq, true_and]
    constructor
    · rintro ⟨rfl, rfl⟩; exact ⟨rfl, rfl⟩
    · rintro ⟨rfl, rfl⟩; exact ⟨rfl, rfl⟩
  | error e b => simp

theorem annotate_completes {a : Annotated} (h : annotate source window tree = .ok a) :
    a.annotation.progress.Completes (.ofSource source window) (.root tree)
      (Cursor.root tree).preorder := by
  have hstart := Annotation.midway_start (.ofSource source window) tree
  exact Annotation.completes_of_pass hstart (annotate_ok.1 h).1

/-- **When a tree can be annotated.** -/
theorem annotate_ok_iff : (∃ a, annotate source window tree = .ok a) ↔
    ∀ c ∈ (Cursor.root tree).preorder,
      (Locator.ofSource source window).final? c ≠ none ∧ c.introduced.fault = none := by
  have hstart := Annotation.midway_start (.ofSource source window) tree
  rw [← Annotation.pass_ok_iff hstart]
  constructor
  · rintro ⟨a, ha⟩
    exact ⟨a.annotation, (annotate_ok.1 ha).1⟩
  · rintro ⟨b, hb⟩
    exact ⟨⟨b.progress.place tree, b⟩, annotate_ok.2 ⟨hb, rfl⟩⟩

end

/-- An identifier of one character, as it is reported. -/
def Node.identifier (text : Char) (column : Int) : Node :=
  .mk "Identifier" { raw := some [text], line := some 1, column := some column } []

/-- The sum `a+b`, as it is reported: without a text of its own. -/
def Node.sum : Node :=
  .mk "PlusOp" {} [("left", .node (.identifier 'a' 1)), ("right", .node (.identifier 'b' 3))]

theorem preorder_sum : (Cursor.root .sum).preorder =
    [.root .sum, ⟨.identifier 'a' 1, [⟨"left", []⟩], some "PlusOp"⟩,
      ⟨.identifier 'b' 3, [⟨"right", []⟩], some "PlusOp"⟩] := by
  refine Cursor.preorder_of_leaves fun d hd => ?_
  rw [show (Cursor.root .sum).children = [_, _] from rfl, List.mem_cons, List.mem_singleton] at hd
  rcases hd with rfl | rfl <;> rfl

theorem annotate_sum : ∃ a, annotate ['a', '+', 'b'] .standard .sum = .ok a := by
  rw [annotate_ok_iff, preorder_sum]
  simp only [List.forall_mem_cons]
  refine ⟨⟨?_, rfl⟩, ⟨?_, rfl⟩, ⟨?_, rfl⟩, by simp⟩ <;>
    decide +kernel

end SyntaxSpans
