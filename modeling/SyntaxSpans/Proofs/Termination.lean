import SyntaxSpans.Proofs.Rounds

/-!
# Resolving comes to its end

Whatever was found out before, a call of the resolver ends, and so does the walk of an annotation. The
journal bounds the work on the way: over all calls of one resolver, a node is begun at most once and gets a
further round for every two characters that its text has lost (`rounds_bounded`).
-/

namespace SyntaxSpans

open Progress

/-! ## Calls of the resolver -/

/-- What the calls of one resolver leave of `p`, failing ones included. Between two calls nodes may be
linked or moved; their texts stay as they are, and so does which of them have been dealt with. -/
inductive Calls (l : Locator) (r : Cursor) (p : Progress) : Progress → List Entry → Prop
  | none : Calls l r p p []
  | call {p₁ p₂ : Progress} {journal journal' : List Entry} {c : Cursor} {end? : Except Fault Unit}
    (h : Calls l r p p₁ journal) (hc : r.Contains c)
    (hrun : l.attend c (p₁, journal) = some (end?, (p₂, journal'))) : Calls l r p p₂ journal'
  | meanwhile {p₁ p₂ : Progress} {journal : List Entry} (h : Calls l r p p₁ journal)
    (hsame : ∀ d, r.Contains d → p₂.status d = p₁.status d) : Calls l r p p₂ journal

section
variable {l : Locator} {r c : Cursor} {p p' : Progress} {journal : List Entry}

/-- **Every call ends**, and as it does without a journal. -/
theorem attend_ends (l : Locator) (hc : r.Contains c) (p : Progress) (journal : List Entry) :
    ∃ p' new, l.attend c (p, journal) = some (answer (l.resolve c p), (p', journal ++ new)) ∧
      p'.Alike r (final (l.resolve c p)) ∧
      ∀ d, r.Contains d → Course d.path (p.status d) new (p'.status d) := by
  obtain ⟨p', new, hrun, halike, henters, -⟩ := Locator.follows_resolve (l := l) hc .refl journal
  exact ⟨p', new, hrun, halike.1, henters.course⟩

theorem Calls.course (h : Calls l r p p' journal) :
    ∀ d, r.Contains d → Course d.path (p.status d) journal (p'.status d) := by
  induction h with
  | none => exact fun _ _ => .done
  | @call p₁ _ journal _ c _ _ hc hrun ih =>
    obtain ⟨p₂, new, hends, -, hcourse⟩ := attend_ends l hc p₁ journal
    rw [hrun] at hends
    obtain ⟨-, rfl, rfl⟩ : _ ∧ _ ∧ _ := by simpa using hends
    exact fun d hd => (ih d hd).trans (hcourse d hd)
  | meanwhile _ hsame ih => exact fun d hd => hsame d hd ▸ ih d hd

end

/-! ## The walk -/

namespace Annotation

open Journaling

def attend (l : Locator) (c : Cursor) : Journaling Annotation Unit := do
  if c.path.isEmpty then pure () else quietly (resolving (Resolving.link c))
  quietly (enterScope c)
  within View.ofAnnotation (l.attend c)
  quietly (modify fun a => { a with visited := a.visited + 1 })

def journey (l : Locator) (tree : Node) : Journaling Annotation Unit := do
  (Cursor.root tree).walk fun c => do
    attend l c
    return true
  let a ← quietly get
  quietly (resolving (Resolving.record (.annotated a.visited)))

section
variable {l : Locator} {r c : Cursor} {a b : Annotation} {bound : Nat}

/-- A step of a resolution, as one of the walk. -/
theorem follows_within {x : Journaling Progress Unit} {y : Resolving Unit}
    {post : Unit → Progress → Prop} (h : View.ofAnnotation.Alike r a b)
    (hx : Follows .whole r bound x a.progress (y b.progress) post) :
    Follows View.ofAnnotation r bound (within View.ofAnnotation x) a (resolving y b) fun _ _ => True := by
  intro journal
  obtain ⟨p, new, hrun, halike, henters, hok⟩ := hx journal
  have hanswer : answer (resolving y b) = answer (y b.progress) := by
    rw [resolving]
    cases y b.progress <;> rfl
  have hfinal : final (resolving y b) = { b with progress := final (y b.progress) } := by
    rw [resolving]
    cases y b.progress <;> rfl
  refine ⟨{ a with progress := p }, new, ?_, ⟨hfinal ▸ halike.1, ?_⟩, henters, fun u hu => ?_⟩
  · rw [hanswer]
    change (x (a.progress, journal)).map _ = _
    rw [hrun]
    rfl
  · rw [hfinal, h.2]
    rfl
  · exact ⟨(hok u (hanswer ▸ hu)).1, trivial⟩

/-- What entering a scope does, is no matter of the resolution. -/
theorem enterScope_apply (c : Cursor) (a : Annotation) : enterScope c a =
    let (forest, scope, fault) := a.forest.enterNode c c.path.isEmpty (a.outerScope? c.path)
    let a' := { a with
      forest
      scopes := match scope with
        | some i => a.scopes.insert c.path i
        | none => a.scopes }
    match fault with
    | some fault => .error fault a'
    | none => .ok () a' := by
  refine eq_of_outcome ?_
  rw [enterScope, outcome_bind, outcome_get]
  obtain ⟨forest, scope, fault⟩ := a.forest.enterNode c c.path.isEmpty (a.outerScope? c.path)
  cases scope <;> cases fault <;> simp [outcome_bind]

theorem follows_enterScope (h : View.ofAnnotation.Alike r a b) :
    Follows View.ofAnnotation r bound (quietly (enterScope c)) a (enterScope c b) fun _ _ => True := by
  obtain ⟨q, hq, rfl⟩ : ∃ q : Progress, q.Alike r b.progress ∧ a = { b with progress := q } :=
    ⟨a.progress, h.1, h.2⟩
  have hx := enterScope_apply c { b with progress := q }
  have houter : ({ b with progress := q } : Annotation).outerScope? c.path = b.outerScope? c.path := rfl
  rw [enterScope_apply c b]
  simp only [houter] at hx
  generalize b.forest.enterNode c c.path.isEmpty (b.outerScope? c.path) = entered at hx ⊢
  obtain ⟨forest, scope, fault⟩ := entered
  cases fault with
  | none => exact .last hx ⟨hq, rfl⟩ (fun _ _ => rfl) trivial
  | some fault => exact .last_fault hx ⟨hq, rfl⟩ fun _ _ => rfl

/-- One node of the walk, once it is linked. -/
theorem follows_stepLinked (hc : r.Contains c) (h : View.ofAnnotation.Alike r a b) :
    Follows View.ofAnnotation r 0
      (do
        quietly (enterScope c)
        within View.ofAnnotation (l.attend c)
        quietly (modify fun a => { a with visited := a.visited + 1 })) a
      (stepLinked l c b) fun _ _ => True := by
  refine (follows_enterScope h).bind fun _ a₁ b₁ _ h₁ => ?_
  have hattend := follows_within h₁ (Locator.follows_resolve (l := l) hc h₁.1)
  refine (hattend.mono (Nat.zero_le _) fun _ _ h => h).bind fun _ a₂ b₂ _ h₂ => ?_
  refine .last rfl ⟨h₂.1, ?_⟩ (fun _ _ => rfl) trivial
  rw [h₂.2]
  rfl

theorem follows_step (hc : r.Contains c) (h : View.ofAnnotation.Alike r a b) :
    Follows View.ofAnnotation r 0 (attend l c) a (step l c b) fun _ _ => True := by
  rw [attend, step]
  split
  · exact follows_stepLinked hc h
  · have hlink : Follows View.ofAnnotation r 0 (quietly (resolving (Resolving.link c))) a
        (resolving (Resolving.link c) b) fun _ _ => True := by
      refine .last rfl ⟨h.1.link hc, ?_⟩ (.link hc) trivial
      rw [h.2]
      rfl
    exact hlink.bind fun _ a₁ b₁ _ h₁ => follows_stepLinked hc h₁

theorem follows_forM {cs : List Cursor} (hcs : ∀ c ∈ cs, r.Contains c)
    (h : View.ofAnnotation.Alike r a b) :
    Follows View.ofAnnotation r 0 (cs.forM (attend l)) a (cs.forM (step l) b) fun _ _ => True := by
  induction cs generalizing a b with
  | nil => exact .pure h trivial
  | cons c rest ih =>
    obtain ⟨hc, hrest⟩ := List.forall_mem_cons.1 hcs
    simp only [List.forM_eq_forM, List.forM_cons] at ih ⊢
    exact (follows_step hc h).bind fun _ a' b' _ h' => ih hrest h'

/-- **The walk**, with a journal. -/
theorem follows_pass {tree : Node} (h : View.ofAnnotation.Alike (.root tree) a b) :
    Follows View.ofAnnotation (.root tree) 0 (journey l tree) a (pass l tree b) fun _ _ => True := by
  rw [journey, pass, Cursor.walk_eq_forM (attend l) fun _ => rfl,
    Cursor.walk_eq_forM (step l) (visit_eq l)]
  refine (follows_forM (fun c => Cursor.contains_of_mem_preorder) h).bind fun _ a' b' _ h' => ?_
  refine .step rfl rfl (fun _ _ => rfl) (.last rfl ⟨?_, ?_⟩ (fun _ _ => rfl) trivial)
  · rw [h'.2]
    exact h'.1.record [_]
  · rw [h'.2]
    rfl

end

end Annotation

/-! ## The bounds -/

open Annotation (journey pass)

/-- **Resolving comes to its end, with bounded work at each node.** Every call on a node of a tree ends,
from whatever was found out before, and as the resolver does. From a resolver that has dealt with no node
yet, however often it is called and whether or not the calls fail, each node is begun at most once, each
further round of it has a text two characters shorter than the one before, and so it gets at most one round
and one for every two characters of its first text. The walk of an annotation ends as well, within the same
bounds, and takes each operator ahead at most once. -/
theorem rounds_bounded (l : Locator) (tree : Node) :
    (∀ c p journal, (Cursor.root tree).Contains c → ∃ p' new,
      l.attend c (p, journal) = some (answer (l.resolve c p), (p', journal ++ new)) ∧
      p'.Alike (.root tree) (final (l.resolve c p))) ∧
    (∀ p p' journal, (∀ d, (Cursor.root tree).Contains d → (p.mark d).resolved = false) →
      Calls l (.root tree) p p' journal → ∀ d, (Cursor.root tree).Contains d →
        Course d.path (p.status d) journal (p'.status d) ∧ Bounded d.path journal) ∧
    ∀ a : Annotation, (∀ d, (Cursor.root tree).Contains d → (a.progress.mark d).resolved = false) →
      ∃ a' journal, journey l tree (a, []) =
          some (answer (pass l tree a), (a', journal)) ∧
        View.ofAnnotation.Alike (.root tree) a' (final (pass l tree a)) ∧
        ∀ d, (Cursor.root tree).Contains d →
          Course d.path (a.progress.status d) journal (a'.progress.status d) ∧
          Bounded d.path journal ∧ journal.count (.chained d.path) ≤ 1 := by
  refine ⟨fun c p journal hc => ?_, fun p p' journal hfresh h d hd => ?_, fun a hfresh => ?_⟩
  · obtain ⟨p', new, hrun, halike, -⟩ := attend_ends l hc p journal
    exact ⟨p', new, hrun, halike⟩
  · exact ⟨h.course d hd, (h.course d hd).bounded (hfresh d hd)⟩
  · obtain ⟨a', journal, hrun, halike, henters, -⟩ :=
      Annotation.follows_pass (l := l) (a := a) ⟨.refl, rfl⟩ []
    refine ⟨a', journal, hrun, halike, fun d hd => ?_⟩
    exact ⟨henters.course d hd, (henters.course d hd).bounded (hfresh d hd), henters.once d hd⟩

/-- A name in two pairs of parentheses, as it is reported. -/
def Node.doublyWrapped : Node :=
  .mk "Identifier" { raw := some "((a))".toList, line := some 1, column := some 1 } []

def Locator.ofDoublyWrapped : Locator := .ofSource "((a))".toList .standard

/-- The name loses both pairs, so that it gets three rounds: one, and one for every two of its five
characters. -/
theorem rounds_bounded_doublyWrapped : ∃ p journal,
    Locator.ofDoublyWrapped.attend (.root .doublyWrapped) ({}, []) = some (.ok (), (p, journal)) ∧
    Bounded [] journal ∧ journal.countP (·.isRound []) = 3 := by
  have hfinal : Locator.ofDoublyWrapped.final? (.root .doublyWrapped) =
      some { raw := some ['a'], span := some ⟨2, 3⟩, line := some 1, column := some (-1) } := by
    decide +kernel
  have hpristine := pristine_empty (.root .doublyWrapped)
  have hstart : (({} : Progress).status (.root .doublyWrapped)) = ⟨false, some "((a))".toList⟩ := by
    simp [status, mark]
    rfl
  obtain ⟨p', hok⟩ := hpristine.resolve_ok .refl (Or.inl rfl) (hfinal ▸ Option.some_ne_none _)
  have hplaced := hpristine.placed .refl (Or.inl rfl) hok .refl
  have hdone : (p'.mark (.root .doublyWrapped)).resolved = true :=
    (((Midway.start hpristine).resolve .refl (Or.inl rfl) (by simp)).of_ok hok).1.done _ (by simp)
  obtain ⟨hends, hcalls, -⟩ := rounds_bounded .ofDoublyWrapped .doublyWrapped
  obtain ⟨p, journal, hrun, halike⟩ := hends (.root .doublyWrapped) {} [] .refl
  rw [hok] at hrun halike
  have hend : p.status (.root .doublyWrapped) = ⟨true, some ['a']⟩ := by
    rw [status, halike.marks _ .refl, final, hdone, ← Option.some.inj (hfinal.symm.trans hplaced)]
  obtain ⟨hcourse, hbounded⟩ := hcalls {} p journal (fun d hd => (hpristine d hd).2)
    (.call .none .refl hrun) (.root .doublyWrapped) .refl
  rw [hstart, hend] at hcourse
  refine ⟨p, journal, hrun, hbounded, ?_⟩
  have hrounds := hcourse.rounds_of_fresh rfl rfl
  rw [hcourse.head?_of_fresh rfl rfl] at hrounds
  simp only [Option.some_or, Entry.size_some] at hrounds
  have hlength : "((a))".toList.length = 5 := rfl
  rw [hlength] at hrounds
  change 1 + 2 * journal.countP (·.isRound []) = 5 + 2 at hrounds
  omega

end SyntaxSpans
