import Mathlib.Data.List.Nodup
import Std.Data.String.ToNat
import SyntaxSpans.Proofs.Chains

/-!
# Fresh names

No two candidates for a fresh name are equal, and there is one more of them than the chain of a scope has
bindings. So one of them is free there (`fresh_spec`), and `fresh` is the first one that is.
-/

namespace SyntaxSpans

namespace Forest

variable {α : Type} {f : Forest α} {i j k : Nat} {name base : String}

/-! ## Candidates -/

/-- The candidates for a fresh name are all different. -/
theorem candidate_injective (base : String) : Function.Injective (candidate base) := by
  -- a number behind the base name is never the base name alone
  have hbase : ∀ k, base ++ toString (k + 1) ≠ base := by
    intro k h
    have hempty : toString (k + 1) = "" :=
      (String.append_right_inj base).1 (h.trans String.append_empty.symm)
    exact Nat.repr_ne_empty hempty
  intro j k h
  cases j with
  | zero =>
    cases k with
    | zero => rfl
    | succ k => exact absurd h.symm (hbase k)
  | succ j =>
    cases k with
    | zero => exact absurd h (hbase j)
    | succ k => exact Nat.repr_injective ((String.append_right_inj base).1 h)

/-! ## Bound names -/

def chainNames (f : Forest α) (i : ScopeId) : List String :=
  (f.chain i).flatMap fun j => ((f.scope? j).map (·.bindings.map (·.1))).getD []

theorem length_chainNames (f : Forest α) (i : Nat) : (f.chainNames i).length = f.chainSize i := by
  have hfold : ∀ (is : List ScopeId) (n : Nat),
      is.foldl (fun n j => n + ((f.scope? j).map (·.bindings.length)).getD 0) n =
        n + (is.flatMap fun j => ((f.scope? j).map (·.bindings.map (·.1))).getD []).length := by
    intro is
    induction is with
    | nil => simp
    | cons j rest ih =>
      intro n
      rw [List.foldl_cons, ih, List.flatMap_cons, List.length_append, Nat.add_assoc]
      cases f.scope? j <;> simp
  rw [chainSize, hfold, Nat.zero_add]
  rfl

theorem mem_chainNames_of_has (h : f.has i name = true) : name ∈ f.chainNames i := by
  rw [has, get?, List.findSome?_isSome_iff] at h
  obtain ⟨j, hj, hown⟩ := h
  refine List.mem_flatMap.2 ⟨j, hj, ?_⟩
  rw [own?] at hown
  cases hs : f.scope? j with
  | none => simp [hs] at hown
  | some s =>
    rw [hs, Option.bind_some, Scope.own?] at hown
    obtain ⟨a, ha⟩ := Option.isSome_iff_exists.1 hown
    obtain ⟨l, r, hsplit, -⟩ := List.lookup_eq_some_iff.1 ha
    simp [hsplit]

/-! ## The fresh name -/

/-- **A fresh name** is the first candidate that is free in the chain of a scope. It comes after no more
candidates than the chain has bindings. -/
theorem fresh_spec (f : Forest α) (i : Nat) (base : String) :
    ∃ k ≤ f.chainSize i, f.fresh i base = candidate base k ∧ f.has i (candidate base k) = false ∧
      ∀ j < k, f.has i (candidate base j) = true := by
  have hfree : ∃ k, (List.range (f.chainSize i + 1)).find? (fun k => !f.has i (candidate base k)) =
      some k := by
    rw [← Option.isSome_iff_exists, ← Option.ne_none_iff_isSome]
    intro hnone
    rw [List.find?_range_eq_none] at hnone
    -- otherwise the names of the chain would hold all candidates, which are too many
    have hsubset : (List.range (f.chainSize i + 1)).map (candidate base) ⊆ f.chainNames i := by
      intro name hname
      obtain ⟨k, hk, rfl⟩ := List.mem_map.1 hname
      have := hnone k (List.mem_range.1 hk)
      exact mem_chainNames_of_has (by simpa using this)
    have hnodup : ((List.range (f.chainSize i + 1)).map (candidate base)).Nodup :=
      List.Nodup.map (candidate_injective base) List.nodup_range
    have hlength := hnodup.length_le_of_subset hsubset
    rw [length_chainNames, List.length_map, List.length_range] at hlength
    omega
  obtain ⟨k, hk⟩ := hfree
  have hfresh : f.fresh i base = candidate base k := by
    rw [fresh, List.find?_map, show (fun name => !f.has i name) ∘ candidate base =
      fun k => !f.has i (candidate base k) from rfl, hk]
    rfl
  obtain ⟨hfree, hmem, hleast⟩ := List.find?_range_eq_some.1 hk
  have hlt := List.mem_range.1 hmem
  refine ⟨k, by omega, hfresh, by simpa using hfree, fun j hj => by simpa using hleast j hj⟩

theorem get?_fresh (f : Forest α) (i : Nat) (base : String) : f.get? i (f.fresh i base) = none := by
  obtain ⟨k, -, hfresh, hfree, -⟩ := fresh_spec f i base
  rw [hfresh]
  exact has_eq_false_iff.1 hfree

end Forest

end SyntaxSpans
