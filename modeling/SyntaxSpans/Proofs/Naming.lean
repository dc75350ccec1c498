import SyntaxSpans.Proofs.Capture

/-!
# Names that are handed out

A fresh name is found by trying one candidate after the other. The candidates are all different and the
chain of a scope has finitely many bindings, so the trials end (`tryFrom_eq_fresh`). What is handed out is
bound at once, and bindings are never taken back (`bound_apply`). So requests that go from a scope inwards
never get the same name twice, whatever else is done to the scopes between them (`handedOut_nodup`).
-/

namespace SyntaxSpans

namespace Forest

/-! ## Trying candidates -/

section
variable {α : Type} {f : Forest α} {i s t : Nat} {k tests : Nat} {base name other : String} {a : α}

/-- Tries the candidates from the `k`-th on, up to the first that has no meaning in a scope. There is no
answer where that takes more than the given number of trials. -/
def tryFrom (f : Forest α) (i : ScopeId) (base : String) (k : Nat) : (tests : Nat) → Option String
  | 0 => none
  | tests + 1 =>
    if f.has i (candidate base k) then f.tryFrom i base (k + 1) tests else some (candidate base k)

/-- **When the trials end**, and with which name. -/
theorem tryFrom_eq_some_iff : f.tryFrom i base k tests = some name ↔
    ∃ n < tests, name = candidate base (k + n) ∧ f.has i name = false ∧
      ∀ m < n, f.has i (candidate base (k + m)) = true := by
  induction tests generalizing k with
  | zero => simp [tryFrom]
  | succ tests ih =>
    rw [tryFrom]
    cases hhas : f.has i (candidate base k) with
    | false =>
      simp only [Bool.false_eq_true, if_false, Option.some.injEq]
      constructor
      · rintro rfl
        exact ⟨0, by omega, rfl, hhas, by omega⟩
      · rintro ⟨n, -, rfl, -, hbefore⟩
        cases n with
        | zero => rfl
        | succ n =>
          have := hbefore 0 (by omega)
          simp [hhas] at this
    | true =>
      -- this candidate is taken, and the trials go on with the next one
      simp only [if_true, ih]
      constructor
      · rintro ⟨n, hn, rfl, hfree, hbefore⟩
        refine ⟨n + 1, by omega, by congr 1; omega, hfree, fun m hm => ?_⟩
        cases m with
        | zero => exact hhas
        | succ m =>
          rw [show k + (m + 1) = k + 1 + m by omega]
          exact hbefore m (by omega)
      · rintro ⟨n, hn, rfl, hfree, hbefore⟩
        cases n with
        | zero => simp [hhas] at hfree
        | succ n =>
          refine ⟨n, by omega, by congr 1; omega, hfree, fun m hm => ?_⟩
          have := hbefore (m + 1) (by omega)
          rwa [show k + (m + 1) = k + 1 + m by omega] at this

/-- One trial more than the chain has bindings is enough. -/
theorem tryFrom_eq_fresh (f : Forest α) (i : Nat) (base : String) :
    f.tryFrom i base 0 (f.chainSize i + 1) = some (f.fresh i base) := by
  obtain ⟨k, hk, hfresh, hfree, hbefore⟩ := fresh_spec f i base
  rw [tryFrom_eq_some_iff]
  refine ⟨k, by omega, by rw [hfresh, Nat.zero_add], by rw [hfresh, hfree], fun m hm => ?_⟩
  rw [Nat.zero_add]
  exact hbefore m hm

/-! ## Binding a name -/

theorem get?_declare_of_ne (f : Forest α) (t s : Nat) (a : α) (h : other ≠ name) :
    (f.declare t name a).get? s other = f.get? s other :=
  get?_congr (chain_declare f t name a s) fun _ _ => own?_declare_of_ne f a (Or.inr h)

theorem get?_declare_self (f : Forest α) (name : String) (a : α) (ht : t < f.scopes.size) :
    (f.declare t name a).get? t name = some a := by
  have hown := own?_declare_self f name a ht
  rcases chain_cases (f.declare t name a) t with h | ⟨j, -, -, h⟩ <;>
    simp [get?, h, hown]

end

/-! ## Bindings are never taken back -/

section
variable {f : Forest Cursor} {i t : Nat} {name other : String}

theorem bound_declare (name : String) (d : Cursor) (h : f.own? i other ≠ none) :
    (f.declare t name d).own? i other ≠ none := by
  by_cases hsame : i = t ∧ other = name
  · obtain ⟨rfl, rfl⟩ := hsame
    have hi : i < f.scopes.size := by
      by_contra hge
      simp [own?, scope?, Nat.not_lt.1 hge] at h
    simp [own?_declare_self f other d hi]
  · rwa [own?_declare_of_ne f d (not_and_or.1 hsame)]

theorem bound_assign (name : String) (d : Cursor) (h : f.own? i other ≠ none) :
    (f.assign t name d).own? i other ≠ none := by
  cases hhas : f.has t name with
  | true => rwa [assign_of_has hhas]
  | false =>
    rw [assign_of_free hhas]
    exact bound_declare name d h

theorem bound_introduceAll (t : Nat) (declares : Bool) (ids : List Cursor) (h : f.own? i other ≠ none) :
    (f.introduceAll t declares ids).own? i other ≠ none := by
  induction ids generalizing f with
  | nil => exact h
  | cons d rest ih =>
    refine ih (f := f.introduce t declares d) ?_
    rcases introduce_cases f t declares d with hstep | hstep <;> rw [hstep]
    · exact bound_declare d.node.name d h
    · exact h

/-- **One operation** takes no binding back. -/
theorem bound_apply (op : Operation) (h : f.own? i other ≠ none) : (f.apply op).own? i other ≠ none := by
  cases op with
  | add outer => rwa [apply, own?_add]
  | declare t name d => exact bound_declare name d h
  | assign t name d => exact bound_assign name d h
  | bindFresh t base d => exact bound_declare (f.fresh t base) d h
  | bindIntroduced t c =>
    rw [apply, bindIntroduced_eq]
    exact bound_introduceAll t c.declares c.introduced.identifiers h

end

/-! ## Requests that go inwards -/

section
variable {f : Forest Cursor} {above : List ScopeId} {taken : List String} {ops : List Operation}

/-- The names that operations hand out one after the other. -/
def handedOut (f : Forest Cursor) : List Operation → List String
  | [] => []
  | .bindFresh i base d :: rest =>
    (f.bindFresh i base d).2 :: (f.bindFresh i base d).1.handedOut rest
  | op :: rest => (f.apply op).handedOut rest

/-- Every fresh name is asked for in a scope that stands inside all those where one was asked for before, or
is the same, the scopes `above` among them. Other operations may come between. -/
def GoesInward (f : Forest Cursor) (above : List ScopeId) : List Operation → Prop
  | [] => True
  | .bindFresh i base d :: rest => i < f.scopes.size ∧ above ⊆ f.chain i ∧
      (f.bindFresh i base d).1.GoesInward (i :: above) rest
  | op :: rest => (f.apply op).GoesInward above rest

/-- A run hands out no name twice, and none of the names that were bound above before. -/
theorem handedOut_fresh (hops : f.GoesInward above ops)
    (htaken : ∀ name ∈ taken, ∃ t ∈ above, f.own? t name ≠ none) :
    (f.handedOut ops).Nodup ∧ ∀ name ∈ f.handedOut ops, name ∉ taken := by
  induction ops generalizing f above taken with
  | nil => simp [handedOut]
  | cons op rest ih =>
    -- names that were bound above are bound there after the operation
    have hkept : ∀ name ∈ taken, ∃ t ∈ above, (f.apply op).own? t name ≠ none := by
      intro name hname
      obtain ⟨t, ht, hown⟩ := htaken name hname
      exact ⟨t, ht, bound_apply op hown⟩
    cases op with
    | bindFresh i base d =>
      obtain ⟨hi, habove, hrest⟩ := hops
      have hnew : f.fresh i base ∉ taken := by
        intro hmem
        obtain ⟨t, ht, hown⟩ := htaken _ hmem
        exact hown (get?_eq_none_iff.1 (get?_fresh f i base) t (habove ht))
      have hbound : ∀ name ∈ f.fresh i base :: taken,
          ∃ t ∈ i :: above, (f.bindFresh i base d).1.own? t name ≠ none := by
        intro name hname
        rcases List.mem_cons.1 hname with rfl | hname
        · exact ⟨i, List.mem_cons_self, by simp [bindFresh, own?_declare_self f _ d hi]⟩
        · obtain ⟨t, ht, hown⟩ := hkept name hname
          exact ⟨t, List.mem_cons_of_mem i ht, hown⟩
      obtain ⟨hnodup, hnew'⟩ := ih hrest hbound
      refine ⟨List.nodup_cons.2 ⟨fun hmem => ?_, hnodup⟩, List.forall_mem_cons.2 ⟨hnew, ?_⟩⟩
      · exact hnew' _ hmem List.mem_cons_self
      · exact fun name hname hmem => hnew' name hname (List.mem_cons_of_mem _ hmem)
    | add outer => exact ih hops hkept
    | declare t name d => exact ih hops hkept
    | assign t name d => exact ih hops hkept
    | bindIntroduced t c => exact ih hops hkept

/-- **Requests that go inwards** never get the same name twice. -/
theorem handedOut_nodup (hops : f.GoesInward [] ops) : (f.handedOut ops).Nodup := by
  have hnone : ∀ name ∈ ([] : List String), ∃ t ∈ ([] : List ScopeId), f.own? t name ≠ none := by simp
  exact (handedOut_fresh hops hnone).1

/-- From the inside outwards one name can be handed out twice. -/
example : (after [.add none, .add (some 0)]).handedOut [.bindFresh 1 "ref" (.root (.named "x")),
    .bindFresh 0 "ref" (.root (.named "y"))] = ["ref", "ref"] := by
  decide +kernel

end

/-! ## The names that are handed out -/

/-- **Fresh names are fresh, least and always found.** In every scope the trials end after at most one more
than its chain has bindings, with the first candidate that the chain does not bind. From then on this name
means the given identifier there, and no other name changes its meaning anywhere. Requests that go inwards
never get the same name twice. -/
theorem fresh_names (f : Forest Cursor) :
    (∀ i < f.scopes.size, ∀ base d, ∃ g name, f.bindFresh i base d = (g, name) ∧
      f.tryFrom i base 0 (f.chainSize i + 1) = some name ∧
      (∃ k, name = candidate base k ∧ (∀ t ∈ f.chain i, f.own? t name = none) ∧
        ∀ j < k, ∃ t ∈ f.chain i, f.own? t (candidate base j) ≠ none) ∧
      g.get? i name = some d ∧
      ∀ s other, other ≠ name → g.get? s other = f.get? s other) ∧
    ∀ ops, f.GoesInward [] ops → (f.handedOut ops).Nodup := by
  refine ⟨fun i hi base d => ?_, fun ops => handedOut_nodup⟩
  refine ⟨_, _, rfl, tryFrom_eq_fresh f i base, ?_, get?_declare_self f _ d hi,
    fun s other hother => get?_declare_of_ne f i s d hother⟩
  obtain ⟨k, -, hfresh, -, hbefore⟩ := fresh_spec f i base
  exact ⟨k, hfresh, get?_eq_none_iff.1 (get?_fresh f i base), fun j hj => has_iff.1 (hbefore j hj)⟩

/-- Requests in a scope and in the one around it, where the base name is bound outside. -/
theorem fresh_names_inside :
    let outside := Cursor.root (.named "ref")
    let inside := Cursor.root (.named "x")
    let f := after [.add none, .add (some 0), .declare 0 "ref" outside]
    let ops := [.bindFresh 0 "ref" inside, .bindFresh 1 "ref" inside, .bindFresh 1 "ref1" inside]
    1 < f.scopes.size ∧ f.GoesInward [] ops ∧ f.handedOut ops = ["ref1", "ref2", "ref11"] ∧
      (f.handedOut ops).Nodup ∧
      ∃ g, f.bindFresh 1 "ref" inside = (g, "ref1") ∧
        f.tryFrom 1 "ref" 0 (f.chainSize 1 + 1) = some "ref1" ∧ g.get? 1 "ref1" = some inside ∧
        g.get? 1 "ref" = f.get? 1 "ref" ∧ f.get? 1 "ref" = some outside := by
  intro outside inside f ops
  have hsize : 1 < f.scopes.size := by decide
  have hinward : f.GoesInward [] ops :=
    ⟨by decide, List.nil_subset _, by decide +kernel, by decide +kernel, by decide +kernel,
      by decide +kernel, trivial⟩
  obtain ⟨hone, hmany⟩ := fresh_names f
  obtain ⟨g, name, hbind, htrials, -, hmeans, hothers⟩ := hone 1 hsize "ref" inside
  have hfound : (f.bindFresh 1 "ref" inside).2 = "ref1" := by decide +kernel
  have hname : name = "ref1" := (congrArg Prod.snd hbind).symm.trans hfound
  subst hname
  have hchain : f.chain 1 = [1, 0] := by decide +kernel
  exact ⟨hsize, hinward, by decide +kernel, hmany ops hinward, g, hbind, htrials, hmeans,
    hothers 1 "ref" (by decide), by rw [get?, hchain]; rfl⟩

end Forest

end SyntaxSpans
