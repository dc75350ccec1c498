import SyntaxSpans.Proofs.Ownership

/-!
# Which scope binds which name

Entering a node takes nothing back of what was known before (`Sound.grows`). Once a name has a meaning in
a scope, the scope binds it no more, so all that counts is the first node of the scope that offers an
identifier of the name. A function binds it. Any other node binds it if no scope around has done so before
(`own?_of_first`).
-/

namespace SyntaxSpans

namespace Cursor

/-- The last parameter of the name, if the node is a function with such a parameter. -/
def parameter? (c : Cursor) (name : String) : Option Cursor :=
  if c.isFunction then c.introduced.identifiers.reverse.find? (·.node.name == name) else none

/-- The first identifier of the name among those that the node assigns. -/
def assigned? (c : Cursor) (name : String) : Option Cursor :=
  if c.isFunction then none else c.introduced.identifiers.find? (·.node.name == name)

def offer? (c : Cursor) (name : String) : Option Cursor := (c.parameter? name).or (c.assigned? name)

section
variable {c v : Cursor} {name : String}

theorem offer?_of_declares (h : c.declares = true) :
    c.offer? name = c.introduced.identifiers.reverse.find? (·.node.name == name) := by
  simp [offer?, parameter?, assigned?, ← declares_eq, h]

theorem offer?_of_assigns (h : c.declares = false) :
    c.offer? name = c.introduced.identifiers.find? (·.node.name == name) := by
  simp [offer?, parameter?, assigned?, ← declares_eq, h]

theorem mem_of_offer? (h : c.offer? name = some v) : v ∈ c.introduced.identifiers := by
  cases hd : c.declares with
  | true => exact List.mem_reverse.1 (List.mem_of_find?_eq_some (offer?_of_declares hd ▸ h))
  | false => exact List.mem_of_find?_eq_some (offer?_of_assigns hd ▸ h)

theorem name_of_offer? (h : c.offer? name = some v) : v.node.name = name := by
  cases hd : c.declares with
  | true =>
    rw [offer?_of_declares hd] at h
    simpa using List.find?_some h
  | false =>
    rw [offer?_of_assigns hd] at h
    simpa using List.find?_some h

theorem offer?_ne_none (h : v ∈ c.introduced.identifiers) : c.offer? v.node.name ≠ none := by
  cases hd : c.declares with
  | true =>
    rw [offer?_of_declares hd, ← Option.isSome_iff_ne_none, List.find?_isSome]
    exact ⟨v, List.mem_reverse.2 h, beq_self_eq_true _⟩
  | false =>
    rw [offer?_of_assigns hd, ← Option.isSome_iff_ne_none, List.find?_isSome]
    exact ⟨v, h, beq_self_eq_true _⟩

end

end Cursor

namespace Scoping

/-! ## Growth -/

/-- Nothing is taken back: `s'` knows all that `s` does. -/
structure Grows (s s' : Scoping) : Prop where
  at? : ∀ path i, s.at? path = some i → s'.at? path = some i
  size : s.forest.scopes.size ≤ s'.forest.scopes.size
  outer? : ∀ i < s.forest.scopes.size, s'.forest.outer? i = s.forest.outer? i
  get? : ∀ i name u, s.forest.get? i name = some u → s'.forest.get? i name = some u

section
variable {s s' s'' : Scoping} {c : Cursor} {nodes : List Cursor} {i : Nat} {name : String}

theorem Grows.refl : Grows s s := ⟨fun _ _ => id, Nat.le_refl _, fun _ _ => rfl, fun _ _ _ => id⟩

theorem Grows.trans (h : Grows s s') (h' : Grows s' s'') : Grows s s'' where
  at? path i hi := h'.at? path i (h.at? path i hi)
  size := Nat.le_trans h.size h'.size
  outer? i hi := (h'.outer? i (Nat.lt_of_lt_of_le hi h.size)).trans (h.outer? i hi)
  get? i name u hu := h'.get? i name u (h.get? i name u hu)

theorem Grows.chain (h : Grows s s') (hi : i < s.forest.scopes.size) :
    s'.forest.chain i = s.forest.chain i :=
  Forest.chain_congr fun j hj => h.outer? j (Nat.lt_of_le_of_lt hj hi)

theorem Grows.has (h : Grows s s') (hi : s.forest.has i name = true) : s'.forest.has i name = true := by
  obtain ⟨u, hu⟩ := Option.isSome_iff_exists.1 hi
  exact Option.isSome_iff_exists.2 ⟨u, h.get? i name u hu⟩

/-- **Entering a node** takes nothing back. -/
theorem Sound.grows (h : s.Sound nodes) (hc : Follows nodes c) : Grows s (s.enter c) := by
  obtain ⟨i, he⟩ := h.enter_spec hc
  refine ⟨fun path j hj => ?_, he.size_le, fun j => he.outer?, fun j name u hu => ?_⟩
  · obtain ⟨d, hd, rfl⟩ := h.known path j hj
    rw [he.at?_of_mem hc hd, hj]
  · rcases he.forest with ⟨-, rfl, hforest⟩ | ⟨-, -, -, hforest⟩ <;> rw [hforest]
    · -- a new scope stands around none of the old ones
      rw [Forest.get?_introduceAll_of_notMem fun hmem => ?_, Forest.get?_add _ hu]
      have := Forest.le_of_mem_chain hmem
      have := Forest.lt_size_of_get? hu
      omega
    · exact Forest.get?_assignAll hu

/-- Entering a node binds names in its own scope only. -/
theorem Entered.own?_of_ne (he : Entered s c i s') {j : Nat} (hj : j ≠ i) :
    s'.forest.own? j name = s.forest.own? j name := by
  rcases he.forest with ⟨-, -, hforest⟩ | ⟨-, -, -, hforest⟩ <;>
    rw [hforest, Forest.own?_introduceAll_of_ne hj]
  rw [Forest.own?_add]

/-- **What entering a node binds** in its scope: what the node offers, unless the name has a meaning
there. -/
theorem Entered.own? (he : Entered s c i s') (name : String) : s'.forest.own? i name =
    (s.forest.own? i name).or (if s.forest.has i name then none else c.offer? name) := by
  rcases he.forest with ⟨hopens, rfl, hforest⟩ | ⟨hshares, -, hlt, hforest⟩ <;> rw [hforest]
  · have hnone : s.forest.own? s.forest.scopes.size name = none := by simp [Forest.own?, Forest.scope?]
    have hfree : s.forest.has s.forest.scopes.size name = false :=
      Forest.has_eq_false_iff.2 (Option.eq_none_iff_forall_ne_some.2 fun u hu =>
        absurd (Forest.lt_size_of_get? hu) (Nat.lt_irrefl _))
    have hlt : s.forest.scopes.size < (s.forest.add (s.around? c)).1.scopes.size := by simp [Forest.add]
    rw [hnone, hfree]
    cases hd : c.declares with
    | true =>
      rw [Forest.own?_declareAll hlt, Forest.own?_add, hnone, Cursor.offer?_of_declares hd]
      simp
    | false =>
      -- the node is a top node, so its scope stands alone
      have htop : c.isTop = true := by simpa [Cursor.opensScope_eq, hd] using hopens
      have halone : (s.forest.add (s.around? c)).1.has s.forest.scopes.size name = false := by
        refine Forest.has_eq_false_iff_tail.2 ⟨by rw [Forest.own?_add, hnone], ?_⟩
        rw [Forest.chain_of_top (by rw [Forest.outer?_add, if_pos rfl, around?, if_pos htop])]
        simp
      rw [Forest.own?_assignAll hlt, Forest.own?_add, hnone, halone, Cursor.offer?_of_assigns hd]
  · have hassigns : c.declares = false := Cursor.declares_of_shares hshares
    rw [Forest.own?_assignAll hlt, Cursor.offer?_of_assigns hassigns]

end

/-! ## Runs -/

/-- The walk over the tree below `r` begins with `nodes`. -/
structure Begins (r : Cursor) (nodes : List Cursor) : Prop where
  root : r.path = []
  regular : r.node.Regular
  split : ∃ after, r.preorder = nodes ++ after

section
variable {r c n v w : Cursor} {nodes later before after : List Cursor} {i t : Nat} {name : String}

theorem Begins.init (h : Begins r (nodes ++ later)) : Begins r nodes := by
  obtain ⟨after, hsplit⟩ := h.split
  exact ⟨h.root, h.regular, later ++ after, by rw [hsplit, List.append_assoc]⟩

theorem Begins.sound (h : Begins r nodes) : (ofNodes nodes).Sound nodes := by
  obtain ⟨after, hsplit⟩ := h.split
  exact sound_of_prefix h.root h.regular hsplit

theorem Begins.follows (h : Begins r (nodes ++ [c])) : Follows nodes c := by
  obtain ⟨after, hsplit⟩ := h.split
  exact follows_of_preorder h.root h.regular (by rw [hsplit, List.append_assoc]; rfl)

theorem Begins.entered (h : Begins r (nodes ++ [c])) :
    ∃ i, Entered (ofNodes nodes) c i (ofNodes (nodes ++ [c])) := by
  rw [ofNodes_append]
  exact h.init.sound.enter_spec h.follows

/-- **Entering further nodes** takes nothing back. -/
theorem Begins.grows (h : Begins r (nodes ++ later)) :
    Grows (ofNodes nodes) (ofNodes (nodes ++ later)) := by
  induction later using List.reverseRecOn with
  | nil => rw [List.append_nil]; exact .refl
  | append_singleton later c ih =>
    rw [← List.append_assoc] at h ⊢
    refine (ih h.init).trans ?_
    rw [ofNodes_append]
    exact h.init.sound.grows h.follows

/-- A scope binds a name no more once the name has a meaning there. -/
theorem Begins.own?_of_has (h : Begins r (nodes ++ later))
    (hhas : (ofNodes nodes).forest.has i name = true) :
    (ofNodes (nodes ++ later)).forest.own? i name = (ofNodes nodes).forest.own? i name := by
  induction later using List.reverseRecOn with
  | nil => rw [List.append_nil]
  | append_singleton later c ih =>
    rw [← List.append_assoc] at h ⊢
    obtain ⟨k, he⟩ := h.entered
    rw [← ih h.init]
    by_cases hk : i = k
    · subst hk
      rw [he.own?, h.init.grows.has hhas, if_pos rfl, Option.or_none]
    · exact he.own?_of_ne hk

/-- Whatever a scope binds, a node of that scope has offered. -/
theorem Begins.offered (h : Begins r nodes) (hown : (ofNodes nodes).forest.own? i name = some v) :
    ∃ m ∈ nodes, (ofNodes nodes).at? m.path = some i ∧ m.offer? name = some v := by
  induction nodes using List.reverseRecOn with
  | nil => simp [ofNodes, Forest.own?, Forest.scope?] at hown
  | append_singleton nodes c ih =>
    obtain ⟨k, he⟩ := h.entered
    have hold : (ofNodes nodes).forest.own? i name = some v →
        ∃ m ∈ nodes ++ [c], (ofNodes (nodes ++ [c])).at? m.path = some i ∧ m.offer? name = some v := by
      intro hown
      obtain ⟨m, hm, hat, hoffer⟩ := ih h.init hown
      exact ⟨m, List.mem_append_left _ hm, h.grows.at? _ _ hat, hoffer⟩
    by_cases hk : i = k
    · subst hk
      rw [he.own?, Option.or_eq_some_iff] at hown
      rcases hown with hown | ⟨-, hown⟩
      · exact hold hown
      · split at hown
        · cases hown
        · exact ⟨c, by simp, by rw [he.at?, if_pos rfl], hown⟩
    · rw [he.own?_of_ne hk] at hown
      exact hold hown

theorem Begins.at?_init (h : Begins r (nodes ++ later)) (hc : c ∈ nodes)
    (hi : (ofNodes (nodes ++ later)).at? c.path = some i) :
    (ofNodes nodes).at? c.path = some i ∧ i < (ofNodes nodes).forest.scopes.size := by
  obtain ⟨k, hk, hat⟩ := h.init.sound.inScope c hc
  obtain rfl := Option.some.inj ((h.grows.at? _ _ hat).symm.trans hi)
  exact ⟨hat, hk⟩

theorem Begins.entered_at (h : Begins r (before ++ n :: after))
    (hi : (ofNodes (before ++ n :: after)).at? n.path = some i) :
    Entered (ofNodes before) n i (ofNodes (before ++ [n])) := by
  rw [List.append_cons] at h hi
  obtain ⟨k, he⟩ := h.init.entered
  have hat := (h.at?_init (c := n) (by simp) hi).1
  rw [he.at?, if_pos rfl] at hat
  obtain rfl := Option.some.inj hat
  exact he

theorem Begins.has_of_offer (h : Begins r nodes) (hc : c ∈ nodes)
    (hi : (ofNodes nodes).at? c.path = some i) (hoffer : c.offer? name ≠ none) :
    (ofNodes nodes).forest.has i name = true := by
  obtain ⟨before, after, rfl⟩ := List.append_of_mem hc
  have he := h.entered_at hi
  rw [List.append_cons] at h ⊢
  refine h.grows.has ?_
  cases hhas : (ofNodes before).forest.has i name with
  | true => exact h.init.grows.has hhas
  | false =>
    refine Forest.has_of_own? ?_
    rw [he.own?, hhas, if_neg Bool.false_ne_true]
    intro hnone
    exact hoffer (Option.or_eq_none_iff.1 hnone).2

/-- The scope `t` has bound the name through one of the nodes `before`. -/
def BoundBy (s : Scoping) (before : List Cursor) (t : ScopeId) (name : String) : Prop :=
  ∃ w, s.forest.own? t name = some w ∧
    ∃ m ∈ before, s.at? m.path = some t ∧ w ∈ m.introduced.identifiers

/-- `n` is the first of the nodes in the scope `i` that has something to offer, and it offers `v`. -/
structure First (s : Scoping) (nodes : List Cursor) (offer : Cursor → Option Cursor) (i : ScopeId)
    (before : List Cursor) (n v : Cursor) : Prop where
  split : ∃ after, nodes = before ++ n :: after
  inScope : s.at? n.path = some i
  found : offer n = some v
  first : ∀ m ∈ before, s.at? m.path = some i → offer m = none

theorem First.congr {s : Scoping} {offer offer' : Cursor → Option Cursor}
    (h : ∀ m ∈ nodes, s.at? m.path = some i → offer m = offer' m) (hfirst : s.First nodes offer i before n v) :
    s.First nodes offer' i before n v := by
  obtain ⟨⟨after, rfl⟩, hi, hfound, hbefore⟩ := hfirst
  refine ⟨⟨after, rfl⟩, hi, ?_, fun m hm hat => ?_⟩
  · rw [← h n (by simp) hi, hfound]
  · rw [← h m (List.mem_append_left _ hm) hat, hbefore m hm hat]

/-- Where something is offered, something is offered first. -/
theorem exists_first {s : Scoping} (offer : Cursor → Option Cursor) {m : Cursor} (hm : m ∈ nodes)
    (hi : s.at? m.path = some i) (hoffer : offer m ≠ none) :
    ∃ before n v, s.First nodes offer i before n v := by
  obtain ⟨n, hn⟩ := Option.isSome_iff_exists.1 (List.find?_isSome
    (p := fun m => s.at? m.path == some i && (offer m).isSome) |>.2
      ⟨m, hm, by simp [hi, Option.isSome_iff_ne_none, hoffer]⟩)
  obtain ⟨hoffers, before, after, hsplit, hbefore⟩ := List.find?_eq_some_iff_append.1 hn
  simp only [Bool.and_eq_true, beq_iff_eq, Option.isSome_iff_exists] at hoffers
  obtain ⟨hn, v, hv⟩ := hoffers
  refine ⟨before, n, v, ⟨after, hsplit⟩, hn, hv, fun m hm hat => ?_⟩
  simpa [hat] using hbefore m hm

/-- What a scope has bound at some time is what it binds in the end through the nodes up to then. -/
theorem Begins.own?_ne_none_iff (h : Begins r (before ++ after)) :
    (ofNodes before).forest.own? t name ≠ none ↔ (ofNodes (before ++ after)).BoundBy before t name := by
  constructor
  · intro hown
    obtain ⟨w, hw⟩ := Option.ne_none_iff_exists'.1 hown
    obtain ⟨m, hm, hat, hoffer⟩ := h.init.offered hw
    refine ⟨w, ?_, m, hm, h.grows.at? _ _ hat, Cursor.mem_of_offer? hoffer⟩
    rw [h.own?_of_has (Forest.has_of_own? hown), hw]
  · rintro ⟨w, hw, m, hm, hat, hmem⟩
    obtain ⟨_, -, -, hoffer⟩ := h.offered hw
    obtain rfl := Cursor.name_of_offer? hoffer
    have hhas := h.init.has_of_offer hm (h.at?_init hm hat).1 (Cursor.offer?_ne_none hmem)
    rw [← h.own?_of_has hhas, hw]
    simp

section
variable (h : Begins r nodes) (hfirst : (ofNodes nodes).First nodes (·.offer? name) i before n v)
include h hfirst

theorem Begins.own?_before_first : (ofNodes before).forest.own? i name = none := by
  obtain ⟨⟨after, rfl⟩, -, -, hbefore⟩ := hfirst
  refine Option.eq_none_iff_forall_ne_some.2 fun w hw => ?_
  obtain ⟨m, hm, hat, hoffer⟩ := h.init.offered hw
  have hnone : m.offer? name = none := hbefore m hm (h.grows.at? _ _ hat)
  rw [hnone] at hoffer
  cases hoffer

/-- **The first offer in a scope** decides what the scope binds the name to: what is offered, or nothing
if the name has a meaning already. -/
theorem Begins.own?_of_first : (ofNodes nodes).forest.own? i name =
    if (ofNodes before).forest.has i name then none else some v := by
  have hnone := h.own?_before_first hfirst
  obtain ⟨⟨after, rfl⟩, hi, hoffer, -⟩ := hfirst
  have he := h.entered_at hi
  rw [List.append_cons] at h hi ⊢
  have hat := (h.at?_init (c := n) (by simp) hi).1
  rw [h.own?_of_has (h.init.has_of_offer (by simp) hat (by simp [hoffer])), he.own?, hnone, hoffer]
  rfl

/-- At the first offer the name has no meaning yet if it comes from a function, or if none of the scopes
around has bound the name before. -/
theorem Begins.free_iff_of_first : (ofNodes before).forest.has i name = false ↔ n.declares = true ∨
    ∀ t ∈ ((ofNodes nodes).forest.chain i).tail, ¬ (ofNodes nodes).BoundBy before t name := by
  have hnone := h.own?_before_first hfirst
  obtain ⟨⟨after, rfl⟩, hi, -, -⟩ := hfirst
  simp only [← h.own?_ne_none_iff, not_not]
  rw [Forest.has_eq_false_iff_tail]
  rcases (h.entered_at hi).forest with ⟨hopens, hnew, -⟩ | ⟨hshares, -, hlt, -⟩
  · -- a new scope has no scopes around it yet, and gets some only if it is that of a function
    have hchain : (ofNodes before).forest.chain i = [i] :=
      Forest.chain_of_top (by simp [Forest.outer?, Forest.scope?, hnew])
    refine iff_of_true ⟨hnone, by simp [hchain]⟩ ?_
    cases hd : n.declares with
    | true => exact Or.inl rfl
    | false =>
      have htop : n.isTop = true := by simpa [Cursor.opensScope_eq, hd] using hopens
      have houter := h.sound.around n (by simp) hopens i hi
      rw [around?, if_pos htop] at houter
      exact Or.inr (by simp [Forest.chain_of_top houter])
  · rw [h.grows.chain hlt]
    have hassigns : n.declares = false := Cursor.declares_of_shares hshares
    simp [hassigns, hnone]

end

/-- **What a scope binds**: what is first offered there, if it comes from a function or none of the scopes
around has bound the name before. -/
theorem Begins.own?_eq_some_iff (h : Begins r nodes) :
    (ofNodes nodes).forest.own? i name = some v ↔
      ∃ before n, (ofNodes nodes).First nodes (·.offer? name) i before n v ∧ (n.declares = true ∨
        ∀ t ∈ ((ofNodes nodes).forest.chain i).tail, ¬ (ofNodes nodes).BoundBy before t name) := by
  constructor
  · intro hown
    obtain ⟨m, hm, hat, hoffer⟩ := h.offered hown
    obtain ⟨before, n, w, hfirst⟩ := exists_first (·.offer? name) hm hat (by simp [hoffer])
    rw [h.own?_of_first hfirst] at hown
    split at hown
    · cases hown
    · next hfree =>
      obtain rfl := Option.some.inj hown
      exact ⟨before, n, hfirst, (h.free_iff_of_first hfirst).1 (Bool.eq_false_iff.2 hfree)⟩
  · rintro ⟨before, n, hfirst, hfree⟩
    rw [h.own?_of_first hfirst, (h.free_iff_of_first hfirst).2 hfree, if_neg Bool.false_ne_true]

/-! ## Functions and assignments -/

/-- No node comes into a scope before the node that opens it. -/
theorem Begins.not_before_opener (h : Begins r (before ++ n :: after)) (hopens : n.opensScope = true)
    (hi : (ofNodes (before ++ n :: after)).at? n.path = some i) :
    ∀ m ∈ before, (ofNodes (before ++ n :: after)).at? m.path ≠ some i := by
  intro m hm hat
  have hlt := (h.at?_init hm hat).2
  have hnew := ((h.entered_at hi).of_opens hopens).1
  omega

/-- The only function among the nodes of a scope is the one that opens it. -/
theorem Begins.eq_opener (h : Begins r nodes) {m : Cursor} (hn : n ∈ nodes) (hopens : n.opensScope = true)
    (hi : (ofNodes nodes).at? n.path = some i) (hm : m ∈ nodes) (hdeclares : m.declares = true)
    (hat : (ofNodes nodes).at? m.path = some i) : m = n := by
  have hpath := h.sound.apart m hm n hn (Cursor.opensScope_of_declares hdeclares) hopens (hat.trans hi.symm)
  obtain ⟨after, hsplit⟩ := h.split
  have hin : ∀ d ∈ nodes, r.Contains d := fun d hd =>
    Cursor.contains_of_mem_preorder (by rw [hsplit]; exact List.mem_append_left _ hd)
  exact (hin m hm).eq_of_path (hin n hn) hpath

section
variable {owner : Cursor} (h : Begins r nodes) (ho : owner ∈ nodes) (hopens : owner.opensScope = true)
  (hi : (ofNodes nodes).at? owner.path = some i)
include h ho hopens hi

theorem Begins.own?_of_parameter (hv : owner.parameter? name = some v) :
    (ofNodes nodes).forest.own? i name = some v := by
  have hdeclares : owner.declares = true := by
    rw [← Bool.not_eq_false]
    intro hd
    simp [Cursor.parameter?, ← Cursor.declares_eq, hd] at hv
  obtain ⟨before, after, rfl⟩ := List.append_of_mem ho
  refine h.own?_eq_some_iff.2 ⟨before, owner, ⟨⟨after, rfl⟩, hi, ?_, fun m hm hat => ?_⟩, Or.inl hdeclares⟩
  · simp [Cursor.offer?, hv]
  · exact absurd hat (h.not_before_opener hopens hi m hm)

/-- Any other name is bound by the first node that assigns it, unless a scope around has bound it before. -/
theorem Begins.own?_of_assigned (hnone : owner.parameter? name = none) :
    (ofNodes nodes).forest.own? i name = some v ↔
      ∃ before n, (ofNodes nodes).First nodes (·.assigned? name) i before n v ∧
        ∀ t ∈ ((ofNodes nodes).forest.chain i).tail, ¬ (ofNodes nodes).BoundBy before t name := by
  -- the nodes of the scope offer only what they assign
  have hoffer : ∀ m ∈ nodes, (ofNodes nodes).at? m.path = some i → m.offer? name = m.assigned? name := by
    intro m hm hat
    have hparameter : m.parameter? name = none := by
      cases hd : m.declares with
      | true => rw [h.eq_opener ho hopens hi hm hd hat, hnone]
      | false => simp [Cursor.parameter?, ← Cursor.declares_eq, hd]
    simp [Cursor.offer?, hparameter]
  have hfirst : ∀ before n, (ofNodes nodes).First nodes (·.offer? name) i before n v ↔
      (ofNodes nodes).First nodes (·.assigned? name) i before n v := fun before n =>
    ⟨.congr hoffer, .congr fun m hm hat => (hoffer m hm hat).symm⟩
  rw [h.own?_eq_some_iff]
  simp only [hfirst]
  refine exists_congr fun before => exists_congr fun n => and_congr_right fun hn => ?_
  have hassigns : n.declares = false := by
    rw [← Bool.not_eq_true]
    intro hd
    have := hn.found
    simp [Cursor.assigned?, ← Cursor.declares_eq, hd] at this
  simp [hassigns]

end

/-- What the scope `i` of the owner binds a name to. -/
structure Binds (s : Scoping) (r owner : Cursor) (i : ScopeId) (name : String) : Prop where
  /-- The last of the owner's parameters of that name, whatever is assigned. -/
  parameter : ∀ v, owner.parameter? name = some v → s.forest.own? i name = some v
  /-- If there is none, what is first assigned in the scope, unless one of the scopes around has bound the
  name before through a node that comes earlier. -/
  assigned : owner.parameter? name = none → ∀ v, s.forest.own? i name = some v ↔
    ∃ before n, s.First r.preorder (·.assigned? name) i before n v ∧
      ∀ t ∈ (s.forest.chain i).tail, ¬ s.BoundBy before t name

end

end Scoping

section
variable {source : Text} {window : Window} {tree : Node} {a : Annotated}

theorem begins_preorder (htree : tree.Regular) :
    Scoping.Begins (.root tree) (Cursor.root tree).preorder :=
  ⟨rfl, htree, [], (List.append_nil _).symm⟩

/-- **Which scope binds which name**: in each scope of an annotated tree the owner's parameters come
first, then what is first assigned there. -/
theorem names_bound {j : Json} (hj : j.Distinct) (htree : Node.ofJson j = .ok tree)
    (h : annotate source window tree = .ok a) :
    ∀ i < a.annotation.forest.scopes.size, ∃ owner ∈ (Cursor.root tree).preorder,
      owner.opensScope = true ∧ a.scope? owner = some i ∧
        ∀ name, a.annotation.scoping.Binds (.root tree) owner i name := by
  intro i hi
  have hregular := regular_of_ofJson hj htree
  have hbegins := begins_preorder hregular
  obtain ⟨owner, ho, hopens, hat⟩ := (sound_of_ok hregular h).owned i hi
  refine ⟨owner, ho, hopens, hat, fun name => ?_⟩
  rw [scoping_of_ok h] at hat ⊢
  exact ⟨fun v => hbegins.own?_of_parameter ho hopens hat,
    fun hnone v => hbegins.own?_of_assigned ho hopens hat hnone⟩

end

namespace SelfAssigning

/-! ## A function that assigns to its own name -/

variable {m : Cursor}

theorem assigned?_assignment : assignment.assigned? "f" = some name := by
  unfold Cursor.assigned?
  rw [introduced_assignment]
  rfl

theorem assigned?_x (hm : m ∈ program.preorder) : m.assigned? "x" = none := by
  rw [preorder_program] at hm
  unfold Cursor.assigned?
  fin_cases hm <;> first | rfl | (simp only [introduced_assignment, introduced_inner]; rfl)

theorem eq_of_assigned?_f (hm : m ∈ program.preorder) (h : m.assigned? "f" ≠ none) :
    m = assignment ∨ m = inner := by
  rw [preorder_program] at hm
  fin_cases hm <;> first | exact absurd rfl h | simp

theorem mem_before_inner {before after : List Cursor} (h : program.preorder = before ++ inner :: after) :
    assignment ∈ before := by
  have hne : ∀ c ∈ [program, assignment], c ≠ inner := by
    simp only [List.forall_mem_cons]
    exact ⟨fun h => absurd (congrArg (·.path) h) (by decide),
      fun h => absurd (congrArg (·.path) h) (by decide), by simp⟩
  rw [preorder_program] at h
  rcases before with _ | ⟨c, _ | ⟨d, rest⟩⟩
  · exact absurd (List.cons.inj h).1 (hne _ (by simp))
  · exact absurd (List.cons.inj (List.cons.inj h).2).1 (hne _ (by simp))
  · obtain rfl : assignment = d := (List.cons.inj (List.cons.inj h).2).1
    simp

/-- There are two scopes, that of the function inside that of the program. -/
theorem scopes {s : Scoping} (h : s.Sound program.preorder) :
    ∃ i j, s.at? program.path = some i ∧ s.at? assignment.path = some i ∧ s.forest.outer? i = none ∧
      s.at? function.path = some j ∧ s.forest.outer? j = some i ∧ i ≠ j := by
  have hmem : ∀ c ∈ [program, assignment, function], c ∈ program.preorder := by
    simp [preorder_program]
  obtain ⟨i, -, hi⟩ := h.inScope program (hmem _ (by simp))
  obtain ⟨j, -, hj⟩ := h.inScope function (hmem _ (by simp))
  have hassignment : s.at? assignment.path = some i :=
    (h.at?_of_child (hmem program (by simp)) (by simp [children_program]) rfl).trans hi
  refine ⟨i, j, hi, hassignment, h.outer?_of_top (hmem _ (by simp)) rfl hi, hj, ?_, ?_⟩
  · rw [h.outer?_of_child (hmem assignment (by simp)) (by simp [children_assignment]) rfl hj, hassignment]
    rfl
  · rintro rfl
    have heq := h.apart program (hmem _ (by simp)) function (hmem _ (by simp)) rfl rfl (hi.trans hj.symm)
    exact absurd heq (by decide)

section
variable {s : Scoping} {i j : Nat}

theorem own?_program (hbinds : ∀ name, s.Binds program program i name)
    (hi : s.at? assignment.path = some i) (htop : s.forest.outer? i = none) :
    s.forest.own? i "f" = some name ∧ s.forest.own? i "x" = none := by
  constructor
  · refine ((hbinds "f").assigned rfl name).2 ⟨[program], assignment,
      ⟨⟨_, preorder_program⟩, hi, assigned?_assignment, List.forall_mem_singleton.2 fun _ => rfl⟩, ?_⟩
    rw [Forest.chain_of_top htop]
    simp
  · refine Option.eq_none_iff_forall_ne_some.2 fun v hv => ?_
    obtain ⟨before, n, hfirst, -⟩ := ((hbinds "x").assigned rfl v).1 hv
    obtain ⟨after, hsplit⟩ := hfirst.split
    have hnone := assigned?_x (m := n) (by simp [hsplit])
    simp [hfirst.found] at hnone

theorem own?_function (hbinds : ∀ name, s.Binds program function j name)
    (hi : s.at? assignment.path = some i) (hf : s.forest.own? i "f" = some name)
    (hne : i ≠ j) (hchain : i ∈ (s.forest.chain j).tail) :
    s.forest.own? j "x" = some parameter ∧ s.forest.own? j "f" = none := by
  have hx : function.parameter? "x" = some parameter ∧ function.parameter? "f" = none := by
    unfold Cursor.parameter?
    rw [introduced_function]
    exact ⟨rfl, rfl⟩
  refine ⟨(hbinds "x").parameter parameter hx.1, Option.eq_none_iff_forall_ne_some.2 fun v hv => ?_⟩
  obtain ⟨before, n, hfirst, hfree⟩ := ((hbinds "f").assigned hx.2 v).1 hv
  obtain ⟨after, hsplit⟩ := hfirst.split
  rcases eq_of_assigned?_f (m := n) (by simp [hsplit]) (by simp [hfirst.found]) with rfl | rfl
  · exact hne (Option.some.inj (hi.symm.trans hfirst.inScope))
  · -- the program has bound the name before
    refine hfree i hchain ⟨name, hf, assignment, mem_before_inner hsplit, hi, ?_⟩
    simp [introduced_assignment]

end

end SelfAssigning

section
open SelfAssigning

/-- The program binds `f` to the name in front, and its function binds `x` to the parameter. The `f` in the
body is bound around the function, and so the function does not bind it. -/
theorem names_bound_selfAssigning : Node.ofJson (Node.selfAssigning).dump = .ok .selfAssigning ∧
    ∃ a, annotate .selfAssigning .standard .selfAssigning = .ok a ∧
    ∃ i j, a.scope? program = some i ∧ a.scope? function = some j ∧
      a.annotation.forest.own? i "f" = some name ∧ a.annotation.forest.own? i "x" = none ∧
      a.annotation.forest.own? j "x" = some parameter ∧ a.annotation.forest.own? j "f" = none := by
  have hread : Node.ofJson (Node.selfAssigning).dump = .ok .selfAssigning := rfl
  obtain ⟨a, ha⟩ := annotate_program
  have hsound : a.annotation.scoping.Sound program.preorder :=
    sound_of_ok (regular_of_ofJson distinct_program hread) ha
  obtain ⟨i, j, hi, hassignment, htop, hj, houter, hne⟩ := scopes hsound
  -- each of the two scopes binds what its owner says
  have hbinds : ∀ {owner : Cursor} {k : ScopeId}, owner ∈ program.preorder → owner.opensScope = true →
      a.annotation.scoping.at? owner.path = some k →
      ∀ name, a.annotation.scoping.Binds program owner k name := by
    intro owner k ho hopens hat
    obtain ⟨k', hlt, hat'⟩ := hsound.inScope owner ho
    obtain rfl := Option.some.inj (hat'.symm.trans hat)
    obtain ⟨o, hmem, hopens', hat'', hbinds⟩ := names_bound distinct_program hread ha k' hlt
    have hpath := hsound.apart o hmem owner ho hopens' hopens (hat''.trans hat.symm)
    obtain rfl := (Cursor.contains_of_mem_preorder hmem).eq_of_path (Cursor.contains_of_mem_preorder ho) hpath
    exact hbinds
  obtain ⟨hf, hnone⟩ := own?_program (hbinds (by simp [preorder_program]) rfl hi) hassignment htop
  refine ⟨hread, a, ha, i, j, hi, hj, hf, hnone, ?_⟩
  refine own?_function (hbinds (by simp [preorder_program]) rfl hj) hassignment hf hne ?_
  rw [Forest.chain_of_outer houter (hsound.older j i houter)]
  simp

end

end SyntaxSpans
