import SyntaxSpans.Proofs.Final

/-!
# How settling ends

`Settles l role raw a raw' a'` holds when settling the text `raw` at the anchor `a` ends without a fault,
with `raw'` at `a'`. Its constructors are the ways that a step of settling can go, so what is true of
every settled text is an induction over them: such a text is at rest (`Settles.atRest`), and its span is
either one that was found or what is left of the one that was given (`Settles.span`).
-/

namespace SyntaxSpans

namespace Locator

/-! ## Searching -/

section
variable {l : Locator} {raw : Text} {a a' : Anchor}

/-- A text that is found stands where it is found, which is not in front of the source. -/
theorem searchFrom_some {start k : Int} {tries : Nat} (h : l.searchFrom raw start tries = some k) :
    0 ≤ k ∧ slice l.source k (k + raw.length) = raw := by
  induction tries generalizing start with
  | zero => cases h
  | succ tries ih =>
    rw [searchFrom] at h
    split at h
    · cases h
    · next hstart =>
      split at h
      · next heq =>
        cases h
        exact ⟨Int.not_lt.1 hstart, by simpa using heq⟩
      · exact ih h

/-- A search leaves the anchor alone, or moves its span to a place where the text stands. -/
theorem search_ok (h : l.search raw a = .ok a') :
    a' = a ∨ ∃ k : Int, 0 ≤ k ∧ a' = { a with span := some ⟨k, k + raw.length⟩ } ∧
      l.reads a'.span raw = true := by
  unfold search at h
  split at h
  · cases h; exact Or.inl rfl
  · split at h
    · split at h
      · cases h
      · split at h
        · next k hk =>
          cases h
          obtain ⟨hk0, hslice⟩ := searchFrom_some hk
          exact Or.inr ⟨k, hk0, rfl, by simp [reads, Span.read, hslice]⟩
        · cases h; exact Or.inl rfl
    · cases h; exact Or.inl rfl

theorem search_of_not_reads (h : l.search raw a = .ok a') (hr : l.reads a'.span raw = false) :
    a' = a := by
  rcases search_ok h with rfl | ⟨k, -, -, hreads⟩
  · rfl
  · rw [hr] at hreads; cases hreads

theorem search_of_reads (h : l.reads a.span raw = true) : l.search raw a = .ok a := by
  rw [search, if_pos h]

theorem span_of_reads (h : l.reads a.span raw = true) :
    ∃ s, a.span = some s ∧ s.read l.source = raw := by
  unfold reads at h
  split at h
  · next s hs => exact ⟨s, hs, by simpa using h⟩
  · cases h

end

/-! ## The ways to settle -/

/-- Settling `raw` at `a` ends with `raw'` at `a'`. -/
inductive Settles (l : Locator) (role : Role) : Text → Anchor → Text → Anchor → Prop where
  /-- A concatenation without a span stays as it is. -/
  | skipped {raw : Text} {a : Anchor} (hspan : a.span = none) (hkind : role.kind = "ConcatOp") :
    Settles l role raw a raw a
  /-- The text is where its anchor says, and no parentheses wrap all of it. -/
  | exact {raw : Text} {a a' : Anchor} (hsearch : l.search raw a = .ok a')
    (hreads : l.reads a'.span raw = true) (hstrip : strip? raw = .ok none) :
    Settles l role raw a raw a'
  /-- The text is where its anchor says, and its parentheses are taken off both. -/
  | inset {raw inner raw' : Text} {a a' a'' : Anchor} (hsearch : l.search raw a = .ok a')
    (hreads : l.reads a'.span raw = true) (hstrip : strip? raw = .ok (some inner))
    (hrest : Settles l role inner a'.inset raw' a'') : Settles l role raw a raw' a''
  /-- The text of a `step` is not found and stays as it is. -/
  | step {raw : Text} {a : Anchor} (hstep : role.isStep = true) (hsearch : l.search raw a = .ok a)
    (hreads : l.reads a.span raw = false) : Settles l role raw a raw a
  /-- The text is not found, and its parentheses are taken off the text alone. -/
  | strip {raw inner raw' : Text} {a a' : Anchor} (hsearch : l.search raw a = .ok a)
    (hreads : l.reads a.span raw = false) (hstrip : strip? raw = .ok (some inner))
    (hrest : Settles l role inner a raw' a') : Settles l role raw a raw' a'

inductive AtRest (l : Locator) (role : Role) (raw : Text) (a : Anchor) : Prop where
  | skipped (hspan : a.span = none) (hkind : role.kind = "ConcatOp")
  | exact (hreads : l.reads a.span raw = true) (hstrip : strip? raw = .ok none)
  | step (hstep : role.isStep = true) (hsearch : l.search raw a = .ok a)
    (hreads : l.reads a.span raw = false)

section
variable {l : Locator} {role : Role} {raw raw' : Text} {a a' : Anchor}

/-- **Settling without a fault** goes in one of the five ways. -/
theorem settles_of_settle (h : (l.settle role raw a).fault = none) :
    l.Settles role raw a (l.settle role raw a).raw (l.settle role raw a).anchor := by
  fun_induction l.settle role raw a with
  | case1 raw a hskip =>
    simp only [Bool.and_eq_true, Option.isNone_iff_eq_none, beq_iff_eq] at hskip
    exact .skipped hskip.1 hskip.2
  | case4 raw a _ a' hsearch hreads hstrip => exact .exact hsearch hreads hstrip
  | case5 raw a _ a' hsearch hreads inner hstrip ih => exact .inset hsearch hreads hstrip (ih h)
  | case6 raw a _ a' hsearch hreads hstep =>
    have hreads := Bool.eq_false_iff.2 hreads
    obtain rfl := search_of_not_reads hsearch hreads
    exact .step hstep hsearch hreads
  | case9 raw a _ a' hsearch hreads _ inner hstrip ih =>
    have hreads := Bool.eq_false_iff.2 hreads
    obtain rfl := search_of_not_reads hsearch hreads
    exact .strip hsearch hreads hstrip (ih h)
  | case2 | case3 | case7 | case8 => cases h

theorem settles_of_settled? {text : Text × Anchor} {q : Placement}
    (h : l.settled? role text = some q) :
    ∃ raw, q.raw = some raw ∧ l.Settles role text.1 text.2 raw q.toAnchor := by
  simp only [settled?, Option.ite_none_right_eq_some, Option.isNone_iff_eq_none,
    Option.some.injEq] at h
  obtain ⟨hfault, rfl⟩ := h
  exact ⟨_, rfl, settles_of_settle hfault⟩

/-- **What is settled is at rest.** -/
theorem Settles.atRest (h : l.Settles role raw a raw' a') : l.AtRest role raw' a' := by
  induction h with
  | skipped hspan hkind => exact .skipped hspan hkind
  | exact _ hreads hstrip => exact .exact hreads hstrip
  | inset _ _ _ _ ih => exact ih
  | step hstep hsearch hreads => exact .step hstep hsearch hreads
  | strip _ _ _ _ ih => exact ih

/-- Settling does not change what is at rest. -/
theorem settled?_of_atRest (h : l.AtRest role raw a) :
    l.settled? role (raw, a) = some { a with raw := some raw } := by
  have hskipped : (a.span.isNone && role.kind == "ConcatOp") = true →
      l.settled? role (raw, a) = some { a with raw := some raw } := fun hskip => by
    rw [settled?, settle, if_pos hskip]
    rfl
  by_cases hskip : (a.span.isNone && role.kind == "ConcatOp") = true
  · exact hskipped hskip
  · rw [settled?, settle, if_neg hskip]
    cases h with
    | skipped hspan hkind => exact absurd (by simp [hspan, hkind]) hskip
    | exact hreads hstrip =>
      simp only [search_of_reads hreads, hreads, if_true]
      split
      · next e he => rw [hstrip] at he; cases he
      · rfl
      · next inner hi => rw [hstrip] at hi; cases hi
    | step hstep hsearch hreads =>
      simp only [hsearch, hreads, hstep, Bool.false_eq_true, if_false, if_true]
      rfl

end

end Locator

end SyntaxSpans
