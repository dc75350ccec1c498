import SyntaxSpans.Scope.Forest

/-!
# Chains of scopes

The chain of a scope ends with the chain of every scope in it (`chain_split`), and its numbers decrease,
so no scope stands in it twice. Binding a name changes no chain. It changes what a name means in a scope
only if that scope is inside the one where the name was bound, so binding a name that has no meaning yet
takes no meaning away (`get?_declare_of_free`).
-/

namespace SyntaxSpans

namespace Forest

variable {α : Type} {f g : Forest α} {i j k s t : Nat} {name other : String} {a u : α}

/-- The scope that a scope stands directly inside of. -/
def outer? (f : Forest α) (i : ScopeId) : Option ScopeId := (f.scope? i).bind (·.parent)

theorem lt_size_of_outer? (h : f.outer? i = some j) : i < f.scopes.size := by
  rcases Nat.lt_or_ge i f.scopes.size with hi | hi
  · exact hi
  · simp [outer?, scope?, hi] at h

/-! ## Chains -/

theorem chain_eq (f : Forest α) (i : Nat) : f.chain i =
    match f.outer? i with
    | some j => if j < i then i :: f.chain j else [i]
    | none => [i] := by
  rw [chain]
  rfl

theorem chain_of_outer (h : f.outer? i = some j) (hlt : j < i) : f.chain i = i :: f.chain j := by
  rw [chain_eq, h]
  exact if_pos hlt

theorem chain_of_top (h : f.outer? i = none) : f.chain i = [i] := by
  rw [chain_eq, h]

theorem chain_cases (f : Forest α) (i : Nat) :
    f.chain i = [i] ∨ ∃ j < i, f.outer? i = some j ∧ f.chain i = i :: f.chain j := by
  cases h : f.outer? i with
  | none => exact Or.inl (chain_of_top h)
  | some j =>
    by_cases hlt : j < i
    · exact Or.inr ⟨j, hlt, rfl, chain_of_outer h hlt⟩
    · left
      rw [chain_eq, h]
      exact if_neg hlt

theorem chain_congr (h : ∀ j ≤ i, g.outer? j = f.outer? j) : g.chain i = f.chain i := by
  induction i using Nat.strongRecOn with
  | ind i ih =>
    rw [chain_eq, chain_eq, h i (Nat.le_refl i)]
    split
    · next p hp =>
      split
      · next hlt => rw [ih p hlt fun j hj => h j (Nat.le_trans hj (Nat.le_of_lt hlt))]
      · rfl
    · rfl

@[simp] theorem mem_chain_self (f : Forest α) (i : Nat) : i ∈ f.chain i := by
  rcases chain_cases f i with h | ⟨j, -, -, h⟩ <;> simp [h]

/-- The scopes around a scope are older. -/
theorem le_of_mem_chain (h : j ∈ f.chain i) : j ≤ i := by
  induction i using Nat.strongRecOn with
  | ind i ih =>
    rcases chain_cases f i with hc | ⟨p, hlt, -, hc⟩
    · rw [hc, List.mem_singleton] at h
      omega
    · rw [hc, List.mem_cons] at h
      rcases h with rfl | h
      · omega
      · have := ih p hlt h
        omega

/-- The chain of a scope, cut at a scope in it: what is in front stands inside that scope. -/
theorem chain_split (h : j ∈ f.chain i) :
    ∃ inner, f.chain i = inner ++ f.chain j ∧ ∀ k ∈ inner, j < k := by
  induction i using Nat.strongRecOn with
  | ind i ih =>
    rcases chain_cases f i with hc | ⟨p, hlt, -, hc⟩
    · rw [hc, List.mem_singleton] at h
      subst h
      exact ⟨[], rfl, by simp⟩
    · rw [hc, List.mem_cons] at h
      rcases h with rfl | h
      · exact ⟨[], rfl, by simp⟩
      · obtain ⟨inner, heq, hin⟩ := ih p hlt h
        have := le_of_mem_chain h
        refine ⟨i :: inner, by rw [hc, heq, List.cons_append], List.forall_mem_cons.2 ⟨?_, hin⟩⟩
        omega

theorem chain_nodup (f : Forest α) (i : Nat) : (f.chain i).Nodup := by
  induction i using Nat.strongRecOn with
  | ind i ih =>
    rcases chain_cases f i with hc | ⟨p, hlt, -, hc⟩
    · simp [hc]
    · rw [hc, List.nodup_cons]
      refine ⟨fun h => ?_, ih p hlt⟩
      have := le_of_mem_chain h
      omega

/-! ## Opening a scope -/

theorem outer?_add (f : Forest α) (p : Option ScopeId) (i : Nat) :
    (f.add p).1.outer? i = if i = f.scopes.size then p else f.outer? i := by
  simp only [outer?, scope?, add, Array.getElem?_push]
  split <;> rfl

theorem own?_add (f : Forest α) (p : Option ScopeId) (i : Nat) (name : String) :
    (f.add p).1.own? i name = f.own? i name := by
  simp only [own?, scope?, add, Array.getElem?_push]
  split
  · next h =>
    subst h
    simp [Scope.own?]
  · rfl

/-! ## Binding a name -/

theorem scope?_declare (f : Forest α) (t : Nat) (name : String) (a : α) (i : Nat) :
    (f.declare t name a).scope? i =
      if t = i then (f.scope? i).map (·.bind name a) else f.scope? i := by
  simp only [scope?, declare, Array.getElem?_modify]

@[simp] theorem size_declare (f : Forest α) (t : Nat) (name : String) (a : α) :
    (f.declare t name a).scopes.size = f.scopes.size := by
  simp [declare]

@[simp] theorem outer?_declare (f : Forest α) (t : Nat) (name : String) (a : α) (i : Nat) :
    (f.declare t name a).outer? i = f.outer? i := by
  rw [outer?, scope?_declare]
  split
  · cases h : f.scope? i <;> simp [outer?, h, Scope.bind]
  · rfl

@[simp] theorem chain_declare (f : Forest α) (t : Nat) (name : String) (a : α) (i : Nat) :
    (f.declare t name a).chain i = f.chain i :=
  chain_congr fun j _ => outer?_declare f t name a j

theorem own?_declare_self (f : Forest α) (name : String) (a : α) (h : t < f.scopes.size) :
    (f.declare t name a).own? t name = some a := by
  rw [own?, scope?_declare, if_pos rfl]
  simp [scope?, h]

theorem own?_declare_of_ne (f : Forest α) (a : α) (h : i ≠ t ∨ other ≠ name) :
    (f.declare t name a).own? i other = f.own? i other := by
  rw [own?, own?, scope?_declare]
  split
  · next hi =>
    have hne : other ≠ name := h.resolve_left (by simp [hi])
    cases f.scope? i with
    | none => rfl
    | some s => exact Scope.own?_bind_of_ne s a hne
  · rfl

/-! ## Meanings -/

theorem get?_eq_none_iff : f.get? i name = none ↔ ∀ j ∈ f.chain i, f.own? j name = none := by
  rw [get?, List.findSome?_eq_none_iff]

theorem has_eq_false_iff : f.has i name = false ↔ f.get? i name = none := by
  rw [has, Option.isSome_eq_false_iff, Option.isNone_iff_eq_none]

/-- A name has no meaning in a scope if neither the scope nor one of those around binds it. -/
theorem has_eq_false_iff_tail : f.has i name = false ↔
    f.own? i name = none ∧ ∀ t ∈ (f.chain i).tail, f.own? t name = none := by
  rw [has_eq_false_iff, get?_eq_none_iff]
  rcases chain_cases f i with h | ⟨j, -, -, h⟩ <;> simp [h]

theorem has_iff : f.has i name = true ↔ ∃ j ∈ f.chain i, f.own? j name ≠ none := by
  rw [has, get?, List.findSome?_isSome_iff]
  simp only [Option.isSome_iff_ne_none]

theorem has_of_own? (h : f.own? i name ≠ none) : f.has i name = true :=
  has_iff.2 ⟨i, mem_chain_self f i, h⟩

theorem findSome?_congr {β : Type} {is : List α} {p q : α → Option β} (h : ∀ i ∈ is, p i = q i) :
    is.findSome? p = is.findSome? q := by
  induction is with
  | nil => rfl
  | cons i rest ih =>
    rw [List.findSome?_cons, List.findSome?_cons, h i List.mem_cons_self,
      ih fun j hj => h j (List.mem_cons_of_mem _ hj)]

theorem get?_congr (hchain : g.chain i = f.chain i)
    (h : ∀ j ∈ f.chain i, g.own? j name = f.own? j name) : g.get? i name = f.get? i name := by
  rw [get?, get?, hchain]
  exact findSome?_congr h

theorem lt_size_of_get? (h : f.get? s name = some u) : s < f.scopes.size := by
  rcases Nat.lt_or_ge s f.scopes.size with hs | hs
  · exact hs
  · have hnone : f.scope? s = none := by simp [scope?, hs]
    rw [get?, chain_of_top (by simp [outer?, hnone]), List.findSome?_singleton, own?, hnone] at h
    cases h

theorem get?_add (p : Option ScopeId) (h : f.get? s name = some u) :
    (f.add p).1.get? s name = some u := by
  have hs := lt_size_of_get? h
  rw [get?_congr (chain_congr fun j hj => ?_) fun j _ => own?_add f p j name, h]
  rw [outer?_add, if_neg (by omega)]

/-- **Binding a name that has no meaning yet** takes no meaning away: a scope in which the name means
something already finds that meaning before it comes to the new binding. -/
theorem get?_declare_of_free (hfree : f.get? t name = none) (h : f.get? s other = some u) :
    (f.declare t name a).get? s other = some u := by
  by_cases hname : other = name
  · subst hname
    by_cases ht : t ∈ f.chain s
    · obtain ⟨inner, hsplit, hin⟩ := chain_split ht
      rw [get?] at hfree
      rw [get?, hsplit, List.findSome?_append, hfree, Option.or_none] at h
      have hsame : inner.findSome? ((f.declare t other a).own? · other) =
          inner.findSome? (f.own? · other) :=
        findSome?_congr fun k hk => own?_declare_of_ne f a (Or.inl (Nat.ne_of_gt (hin k hk)))
      rw [get?, chain_declare, hsplit, List.findSome?_append, hsame, h]
      rfl
    · rw [get?_congr (chain_declare f t other a s) fun j hj => ?_, h]
      exact own?_declare_of_ne f a (Or.inl fun hj' => ht (hj' ▸ hj))
  · rw [get?_congr (chain_declare f t name a s) fun j _ => own?_declare_of_ne f a (Or.inr hname), h]

/-! ## Assigning a name -/

theorem assign_of_has (h : f.has t name = true) : f.assign t name a = f := if_pos h

theorem assign_of_free (h : f.has t name = false) : f.assign t name a = f.declare t name a := by
  rw [assign, h]
  rfl

theorem get?_assign (t : Nat) (name : String) (a : α) (h : f.get? s other = some u) :
    (f.assign t name a).get? s other = some u := by
  cases hhas : f.has t name with
  | true => rwa [assign_of_has hhas]
  | false =>
    rw [assign_of_free hhas]
    exact get?_declare_of_free (has_eq_false_iff.1 hhas) h

end Forest

end SyntaxSpans
