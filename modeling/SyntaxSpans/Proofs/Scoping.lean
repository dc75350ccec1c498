import Mathlib.Data.List.Induction
import SyntaxSpans.Proofs.Distinct
import SyntaxSpans.Proofs.Introducing
import SyntaxSpans.Proofs.Pass

/-!
# The scopes of a walk

Resolving the nodes has no part in their scopes. What an annotation says of scopes is what entering one
node after the other leads to, in the order of the walk (`scoping_of_ok`). A node gets a new scope or
that of its parent (`Sound.enter_spec`), and after each node the scopes of the nodes so far hang together
as `Sound` says (`sound_of_prefix`).
-/

namespace SyntaxSpans

/-! ## Nodes that open a scope -/

namespace Cursor

/-- The root, and programs: their scope stands alone. -/
def isTop (c : Cursor) : Bool := c.kind == "Program" || c.path.isEmpty

def isFunction (c : Cursor) : Bool := c.kind == "Function" || c.kind == "BoundFunction"

/-- The nodes that open a scope: top nodes and functions. All others share that of their parent. -/
def opensScope (c : Cursor) : Bool := c.isTop || c.isFunction

/-- **The owners of scopes** are the root, programs, functions and bound functions. -/
theorem opensScope_iff {c : Cursor} : c.opensScope = true ↔
    c.path = [] ∨ c.kind ∈ ["Program", "Function", "BoundFunction"] := by
  simp [opensScope, isTop, isFunction]
  tauto

theorem declares_eq (c : Cursor) : c.declares = c.isFunction := by
  rw [Bool.eq_iff_iff]
  simp [declares, isFunction, functionKinds]

theorem opensScope_eq (c : Cursor) : c.opensScope = (c.isTop || c.declares) := by
  rw [opensScope, declares_eq]

theorem isTop_of_root {c : Cursor} (h : c.path = []) : c.isTop = true := by
  simp [isTop, h]

theorem opensScope_of_root {c : Cursor} (h : c.path = []) : c.opensScope = true := by
  simp [opensScope, isTop_of_root h]

theorem opensScope_of_declares {c : Cursor} (h : c.declares = true) : c.opensScope = true := by
  simp [opensScope_eq, h]

theorem declares_of_shares {c : Cursor} (h : c.opensScope = false) : c.declares = false := by
  simp only [opensScope_eq, Bool.or_eq_false_iff] at h
  exact h.2

end Cursor

/-! ## Entering nodes -/

/-- The scopes so far, and the scope of each node that has been entered. -/
structure Scoping where
  forest : Forest Cursor := {}
  scopes : Std.TreeMap Path ScopeId := {}

namespace Scoping

def at? (s : Scoping) (path : Path) : Option ScopeId := s.scopes[path]?

def outer? (s : Scoping) : Path → Option ScopeId
  | [] => none
  | _ :: parent => s.at? parent

def enter (s : Scoping) (c : Cursor) : Scoping :=
  let (forest, scope, _) := s.forest.enterNode c c.path.isEmpty (s.outer? c.path)
  ⟨forest, match scope with
    | some i => s.scopes.insert c.path i
    | none => s.scopes⟩

def ofNodes (nodes : List Cursor) : Scoping := nodes.foldl enter {}

theorem ofNodes_append (nodes : List Cursor) (c : Cursor) :
    ofNodes (nodes ++ [c]) = (ofNodes nodes).enter c := by
  simp [ofNodes]

section
variable {s : Scoping} {c : Cursor} {path : Path} {i : Nat}

/-- The scope in which that of a node stands when it opens one. -/
def around? (s : Scoping) (c : Cursor) : Option ScopeId := if c.isTop then none else s.outer? c.path

/-- A node that opens a scope binds what it introduces there. -/
theorem enter_of_opens (h : c.opensScope = true) :
    s.enter c = ⟨(s.forest.add (s.around? c)).1.introduceAll s.forest.scopes.size c.declares
      c.introduced.identifiers, s.scopes.insert c.path s.forest.scopes.size⟩ := by
  have henter : s.forest.enter c.kind c.path.isEmpty (s.outer? c.path) =
      ((s.forest.add (s.around? c)).1, some s.forest.scopes.size) := by
    unfold Forest.enter around?
    cases htop : c.isTop with
    | true =>
      rw [if_pos (by simpa [Cursor.isTop] using htop)]
      rfl
    | false =>
      have hdeclares : c.declares = true := by simpa [Cursor.opensScope_eq, htop] using h
      rw [if_neg (by simpa [Cursor.isTop] using htop)]
      exact if_pos hdeclares
  rw [enter, Forest.enterNode, henter]
  rfl

/-- Any other node binds what it introduces in the scope of its parent. -/
theorem enter_of_shares (h : c.opensScope = false) (hi : s.outer? c.path = some i) :
    s.enter c = ⟨s.forest.introduceAll i false c.introduced.identifiers,
      s.scopes.insert c.path i⟩ := by
  obtain ⟨htop, hdeclares⟩ : c.isTop = false ∧ c.declares = false := by
    simpa [Cursor.opensScope_eq] using h
  have henter : s.forest.enter c.kind c.path.isEmpty (s.outer? c.path) = (s.forest, some i) := by
    unfold Forest.enter
    rw [if_neg (by simpa [Cursor.isTop] using htop), hi]
    exact if_neg (Bool.eq_false_iff.1 hdeclares)
  rw [enter, Forest.enterNode, henter, ← hdeclares]
  rfl

theorem at?_insert (f : Forest Cursor) (scopes : Std.TreeMap Path ScopeId) (path other : Path)
    (i : Nat) : (Scoping.mk f (scopes.insert path i)).at? other =
      if path = other then some i else scopes[other]? :=
  Annotation.scopeAt?_insert scopes path other i

end

/-! ## What is known of the nodes so far -/

/-- `c` can be entered after `nodes`: it has not been entered before, and its parent has. -/
structure Follows (nodes : List Cursor) (c : Cursor) : Prop where
  new : ∀ d ∈ nodes, d.path ≠ c.path
  parent : c.path = [] ∨ ∃ e ∈ nodes, ∃ slot, c.path = slot :: e.path

/-- The scopes of the nodes that have been entered hang together: each node has one, those that open a
scope have it for themselves, and every scope is some node's own. -/
structure Sound (s : Scoping) (nodes : List Cursor) : Prop where
  upward : ∀ c ∈ nodes, c.path = [] ∨ ∃ e ∈ nodes, ∃ slot, c.path = slot :: e.path
  inScope : ∀ c ∈ nodes, ∃ i < s.forest.scopes.size, s.at? c.path = some i
  known : ∀ path i, s.at? path = some i → ∃ c ∈ nodes, c.path = path
  shared : ∀ c ∈ nodes, c.opensScope = false → s.at? c.path = s.outer? c.path
  apart : ∀ c ∈ nodes, ∀ d ∈ nodes, c.opensScope = true → d.opensScope = true →
    s.at? c.path = s.at? d.path → c.path = d.path
  owned : ∀ i < s.forest.scopes.size, ∃ c ∈ nodes, c.opensScope = true ∧ s.at? c.path = some i
  around : ∀ c ∈ nodes, c.opensScope = true → ∀ i, s.at? c.path = some i →
    s.forest.outer? i = s.around? c
  older : ∀ i j : Nat, s.forest.outer? i = some j → j < i

section
variable {s s' : Scoping} {c : Cursor} {nodes : List Cursor} {i : Nat}

theorem sound_empty : ({} : Scoping).Sound [] where
  upward := by simp
  inScope := by simp
  known := by simp [at?]
  shared := by simp
  apart := by simp
  owned := by simp
  around := by simp
  older := by simp [Forest.outer?, Forest.scope?]

theorem Sound.outer (h : s.Sound nodes) (hc : Follows nodes c) :
    c.path = [] ∨ ∃ i < s.forest.scopes.size, s.outer? c.path = some i := by
  refine hc.parent.imp id fun ⟨e, he, slot, hp⟩ => ?_
  obtain ⟨i, hi, hat⟩ := h.inScope e he
  exact ⟨i, hi, by rw [hp]; exact hat⟩

/-- What entering a node does to the scopes: the node gets the scope `i`, a new one or that of its
parent, and binds there what it introduces. -/
structure Entered (s : Scoping) (c : Cursor) (i : Nat) (s' : Scoping) : Prop where
  at? : ∀ path, s'.at? path = if c.path = path then some i else s.at? path
  forest : c.opensScope = true ∧ i = s.forest.scopes.size ∧
      s'.forest = (s.forest.add (s.around? c)).1.introduceAll i c.declares c.introduced.identifiers ∨
    c.opensScope = false ∧ s.outer? c.path = some i ∧ i < s.forest.scopes.size ∧
      s'.forest = s.forest.introduceAll i false c.introduced.identifiers

theorem Sound.enter_spec (h : s.Sound nodes) (hc : Follows nodes c) : ∃ i, Entered s c i (s.enter c) := by
  cases hopens : c.opensScope with
  | true =>
    have henter := enter_of_opens (s := s) hopens
    exact ⟨s.forest.scopes.size, fun path => by rw [henter]; exact at?_insert _ s.scopes c.path path _,
      Or.inl ⟨hopens, rfl, by rw [henter]⟩⟩
  | false =>
    rcases h.outer hc with hroot | ⟨i, hlt, hi⟩
    · rw [Cursor.opensScope_of_root hroot] at hopens
      cases hopens
    · have henter := enter_of_shares hopens hi
      exact ⟨i, fun path => by rw [henter]; exact at?_insert _ s.scopes c.path path _,
        Or.inr ⟨hopens, hi, hlt, by rw [henter]⟩⟩

/-- A node that opens a scope gets a new one. -/
theorem Entered.of_opens (he : Entered s c i s') (h : c.opensScope = true) :
    i = s.forest.scopes.size ∧ s'.forest.scopes.size = s.forest.scopes.size + 1 ∧
      s'.forest.outer? i = s.around? c := by
  rcases he.forest with ⟨-, hi, hforest⟩ | ⟨hshares, -⟩
  · refine ⟨hi, by simp [hforest, Forest.add], ?_⟩
    rw [hforest, Forest.outer?_introduceAll, Forest.outer?_add, if_pos hi]
  · rw [h] at hshares
    cases hshares

theorem Entered.of_shares (he : Entered s c i s') (h : c.opensScope = false) :
    s'.forest.scopes.size = s.forest.scopes.size ∧ s.outer? c.path = some i := by
  rcases he.forest with ⟨hopens, -⟩ | ⟨-, hi, -, hforest⟩
  · rw [hopens] at h
    cases h
  · exact ⟨by simp [hforest], hi⟩

theorem Entered.size_le (he : Entered s c i s') : s.forest.scopes.size ≤ s'.forest.scopes.size := by
  cases hopens : c.opensScope with
  | true =>
    obtain ⟨-, hsize, -⟩ := he.of_opens hopens
    omega
  | false => exact Nat.le_of_eq (he.of_shares hopens).1.symm

theorem Entered.lt (he : Entered s c i s') : i < s'.forest.scopes.size := by
  rcases he.forest with ⟨-, hi, hforest⟩ | ⟨-, -, hlt, hforest⟩ <;> rw [hforest]
  · simp [hi, Forest.add]
  · rwa [Forest.size_introduceAll]

theorem Entered.of_new (he : Entered s c i s') {j : Nat} (hold : ¬ j < s.forest.scopes.size)
    (hj : j < s'.forest.scopes.size) : c.opensScope = true ∧ j = i := by
  cases hopens : c.opensScope with
  | true =>
    obtain ⟨hi, hsize, -⟩ := he.of_opens hopens
    exact ⟨rfl, by omega⟩
  | false =>
    have := (he.of_shares hopens).1
    omega

/-- The scopes that were there stay where they are. -/
theorem Entered.outer? (he : Entered s c i s') {j : Nat} (hj : j < s.forest.scopes.size) :
    s'.forest.outer? j = s.forest.outer? j := by
  rcases he.forest with ⟨-, -, hforest⟩ | ⟨-, -, -, hforest⟩ <;> rw [hforest, Forest.outer?_introduceAll]
  rw [Forest.outer?_add, if_neg (Nat.ne_of_lt hj)]

theorem Entered.at?_of_mem (he : Entered s c i s') (hc : Follows nodes c) {d : Cursor} (hd : d ∈ nodes) :
    s'.at? d.path = s.at? d.path := by
  rw [he.at?, if_neg fun h => hc.new d hd h.symm]

theorem Entered.outer?_of_parent (he : Entered s c i s') (hc : Follows nodes c) {path : Path}
    (hup : path = [] ∨ ∃ e ∈ nodes, ∃ slot, path = slot :: e.path) :
    s'.outer? path = s.outer? path := by
  rcases hup with rfl | ⟨e, hmem, slot, rfl⟩
  · rfl
  · exact he.at?_of_mem hc hmem

/-- **One node of the walk** keeps the scopes sound. -/
theorem Sound.of_entered (h : s.Sound nodes) (hc : Follows nodes c) (he : Entered s c i s') :
    s'.Sound (nodes ++ [c]) := by
  have hself : s'.at? c.path = some i := by rw [he.at?, if_pos rfl]
  have hkeep : ∀ d ∈ nodes, s'.at? d.path = s.at? d.path := fun d hd => he.at?_of_mem hc hd
  -- the scope of a node that came before is there already
  have hlt : ∀ d ∈ nodes, ∀ j : Nat, s.at? d.path = some j → j < s.forest.scopes.size := by
    intro d hd j hat
    obtain ⟨k, hk, hat'⟩ := h.inScope d hd
    exact Option.some.inj (hat.symm.trans hat') ▸ hk
  constructor
  case upward =>
    refine List.forall_mem_append.2 ⟨fun d hd => ?_, List.forall_mem_singleton.2 ?_⟩
    · exact (h.upward d hd).imp id fun ⟨e, he, hp⟩ => ⟨e, List.mem_append_left _ he, hp⟩
    · exact hc.parent.imp id fun ⟨e, he, hp⟩ => ⟨e, List.mem_append_left _ he, hp⟩
  case inScope =>
    refine List.forall_mem_append.2 ⟨fun d hd => ?_, List.forall_mem_singleton.2 ⟨i, he.lt, hself⟩⟩
    obtain ⟨j, hj, hat⟩ := h.inScope d hd
    exact ⟨j, Nat.lt_of_lt_of_le hj he.size_le, by rw [hkeep d hd, hat]⟩
  case known =>
    intro path j hat
    rw [he.at?] at hat
    split at hat
    · next hp => exact ⟨c, by simp, hp⟩
    · obtain ⟨d, hd, hp⟩ := h.known path j hat
      exact ⟨d, List.mem_append_left _ hd, hp⟩
  case shared =>
    refine List.forall_mem_append.2 ⟨fun d hd hd' => ?_, List.forall_mem_singleton.2 fun hshares => ?_⟩
    · rw [hkeep d hd, he.outer?_of_parent hc (h.upward d hd)]
      exact h.shared d hd hd'
    · rw [hself, he.outer?_of_parent hc hc.parent, (he.of_shares hshares).2]
  case apart =>
    -- the scope that a node opens is none of those that were there before
    have hnew : ∀ d ∈ nodes, c.opensScope = true → s'.at? d.path ≠ s'.at? c.path := by
      intro d hd hopens heq
      rw [hself, hkeep d hd] at heq
      have := hlt d hd i heq
      have := (he.of_opens hopens).1
      omega
    intro d hd e he' hdo heo heq
    rw [List.mem_append, List.mem_singleton] at hd he'
    rcases hd with hd | rfl <;> rcases he' with he' | rfl
    · rw [hkeep d hd, hkeep e he'] at heq
      exact h.apart d hd e he' hdo heo heq
    · exact absurd heq (hnew d hd heo)
    · exact absurd heq.symm (hnew e he' hdo)
    · rfl
  case owned =>
    intro j hj
    by_cases hold : j < s.forest.scopes.size
    · obtain ⟨d, hd, hopens, hat⟩ := h.owned j hold
      exact ⟨d, List.mem_append_left _ hd, hopens, by rw [hkeep d hd, hat]⟩
    · obtain ⟨hopens, rfl⟩ := he.of_new hold hj
      exact ⟨c, by simp, hopens, hself⟩
  case around =>
    refine List.forall_mem_append.2 ⟨fun d hd hopens j hat => ?_, List.forall_mem_singleton.2
      fun hopens j hat => ?_⟩
    · rw [hkeep d hd] at hat
      rw [he.outer? (hlt d hd j hat), h.around d hd hopens j hat, around?, around?,
        he.outer?_of_parent hc (h.upward d hd)]
    · obtain rfl := Option.some.inj (hself.symm.trans hat)
      rw [(he.of_opens hopens).2.2, around?, around?, he.outer?_of_parent hc hc.parent]
  case older =>
    intro j k hjk
    by_cases hold : j < s.forest.scopes.size
    · exact h.older j k (he.outer? hold ▸ hjk)
    · obtain ⟨hopens, rfl⟩ := he.of_new hold (Forest.lt_size_of_outer? hjk)
      rw [(he.of_opens hopens).2.2, around?] at hjk
      split at hjk
      · cases hjk
      · rcases h.outer hc with hroot | ⟨k', hk', hat⟩
        · rw [hroot] at hjk
          cases hjk
        · obtain rfl := Option.some.inj (hjk.symm.trans hat)
          omega

end

/-! ## The walk over a tree -/

section
variable {r c : Cursor} {before after : List Cursor}

/-- A node of the walk follows those that come before it. -/
theorem follows_of_preorder (hroot : r.path = []) (hr : r.node.Regular)
    (h : r.preorder = before ++ c :: after) : Follows before c := by
  constructor
  · intro d hd hpath
    have hnodup := Cursor.nodup_preorder hr
    rw [h, List.map_append, List.map_cons, List.nodup_append] at hnodup
    exact hnodup.2.2 d.path (List.mem_map_of_mem hd) c.path (by simp) hpath
  · rcases Cursor.mem_children_of_preorder h with rfl | ⟨e, he, hchild⟩
    · exact Or.inl hroot
    · exact Or.inr ⟨e, he, Cursor.path_of_mem_children hchild⟩

/-- **At any time of the walk** the scopes are sound. -/
theorem sound_of_prefix (hroot : r.path = []) (hr : r.node.Regular)
    (h : r.preorder = before ++ after) : (ofNodes before).Sound before := by
  induction before using List.reverseRecOn generalizing after with
  | nil => exact sound_empty
  | append_singleton before c ih =>
    rw [List.append_assoc, List.singleton_append] at h
    have hc := follows_of_preorder hroot hr h
    obtain ⟨i, he⟩ := (ih h).enter_spec hc
    rw [ofNodes_append]
    exact (ih h).of_entered hc he

end

end Scoping

namespace Annotation

/-- What an annotation says of scopes. -/
def scoping (a : Annotation) : Scoping := ⟨a.forest, a.scopes⟩

section
variable {l : Locator} {c : Cursor} {a : Annotation}

theorem enterScope_scoping : Outcome (enterScope c) a
    (fun _ a' => a'.scoping = a.scoping.enter c) (fun _ _ => True) := by
  rw [enterScope, outcome_bind, outcome_get]
  have houter : a.outerScope? c.path = a.scoping.outer? c.path := by
    cases c.path <;> rfl
  rw [houter]
  simp only [outcome_bind, outcome_set]
  split
  · rw [outcome_throw]
    trivial
  · rw [outcome_pure]
    rfl

/-- Nothing but entering the node touches the scopes. -/
theorem step_scoping : Outcome (step l c) a
    (fun _ a' => a'.scoping = a.scoping.enter c) (fun _ _ => True) := by
  have hlinked : ∀ a' : Annotation, a'.scoping = a.scoping → Outcome (stepLinked l c) a'
      (fun _ a' => a'.scoping = a.scoping.enter c) (fun _ _ => True) := by
    intro a' ha'
    rw [stepLinked, outcome_bind]
    refine enterScope_scoping.imp (fun _ a₂ h₂ => ?_) fun _ _ _ => trivial
    rw [outcome_bind, outcome_resolving]
    unfold Outcome
    split
    · exact h₂.trans (by rw [ha'])
    · trivial
  rw [step]
  split
  · exact hlinked a rfl
  · rw [outcome_bind, outcome_resolving, outcome_link]
    exact hlinked _ rfl

/-- **The scopes that an annotation finds** are those that entering its nodes leads to. -/
theorem pass_scoping {tree : Node} : Outcome (pass l tree) {}
    (fun _ b => b.scoping = Scoping.ofNodes (Cursor.root tree).preorder) (fun _ _ => True) := by
  rw [pass, Cursor.walk_eq_forM (step l) (visit_eq l), outcome_bind]
  refine (Outcome.forM (fun (before : List Cursor) (a : Annotation) =>
    a.scoping = Scoping.ofNodes before) (fun before c after a _ ha => ?_) rfl).imp
    (fun _ b hb => hb) fun _ _ hf => hf
  rw [Scoping.ofNodes_append, ← ha]
  exact step_scoping

end

end Annotation

theorem scoping_of_ok {source : Text} {window : Window} {tree : Node} {a : Annotated}
    (h : annotate source window tree = .ok a) :
    a.annotation.scoping = Scoping.ofNodes (Cursor.root tree).preorder :=
  Annotation.pass_scoping.of_ok (annotate_ok.1 h).1

end SyntaxSpans
