import Mathlib.Data.List.Infix
import SyntaxSpans.Placement.Settle

/-!
# Nesting

How deep a text nests at its end is the number of its opening brackets less that of its closing ones.
`counterpartFrom_eq_some_iff` says in these terms where the counterpart of a bracket is: behind the
longest text that has closed no more groups than it has opened. For parentheses it follows which texts
a pair is taken off (`strip?_eq_some_iff`) and which are refused (`strip?_eq_error_iff`).
-/

namespace SyntaxSpans

namespace Bracket

/-- How many groups are open at the end of a text: opening brackets count up, closing ones down. -/
def depth (b : Bracket) (t : Text) : Int := t.count b.opening - t.count b.closing

/-- No group is closed before it is opened, and none is left open. -/
def Balanced (b : Bracket) (t : Text) : Prop := (∀ p ∈ t.inits, 0 ≤ b.depth p) ∧ b.depth t = 0

instance (b : Bracket) (t : Text) : Decidable (b.Balanced t) :=
  inferInstanceAs (Decidable (_ ∧ _))

section
variable {b : Bracket} {t : Text}

theorem opening_ne_closing (b : Bracket) : b.opening ≠ b.closing := by cases b <;> decide

@[simp] theorem depth_nil : b.depth [] = 0 := rfl

theorem depth_append (t u : Text) : b.depth (t ++ u) = b.depth t + b.depth u := by
  simp only [depth, List.count_append]
  omega

theorem depth_cons (c : Char) (t : Text) : b.depth (c :: t) = b.depth [c] + b.depth t :=
  depth_append [c] t

@[simp] theorem depth_opening : b.depth [b.opening] = 1 := by
  simp [depth, b.opening_ne_closing]

@[simp] theorem depth_closing : b.depth [b.closing] = -1 := by
  simp [depth, b.opening_ne_closing.symm]

theorem depth_other {c : Char} (ho : c ≠ b.opening) (hc : c ≠ b.closing) : b.depth [c] = 0 := by
  simp [depth, ho, hc]

/-- Only a closing bracket ends a group, and only the last one. -/
theorem closing_of_depth {d : Int} {c : Char} (hd : 0 < d) (h : ¬ 0 < d + b.depth [c]) :
    c = b.closing ∧ d = 1 := by
  by_cases ho : c = b.opening
  · subst ho
    rw [depth_opening] at h
    omega
  · by_cases hc : c = b.closing
    · subst hc
      rw [depth_closing] at h
      exact ⟨rfl, by omega⟩
    · rw [depth_other ho hc] at h
      omega

/-- Inside `d` groups the text leaves at least one of them open throughout. -/
def StaysIn (b : Bracket) (d : Int) (t : Text) : Prop := ∀ p, p <+: t → 0 < d + b.depth p

theorem staysIn_nil {d : Int} : b.StaysIn d [] ↔ 0 < d := by
  simp [StaysIn]

theorem staysIn_cons {d : Int} {c : Char} :
    b.StaysIn d (c :: t) ↔ 0 < d ∧ b.StaysIn (d + b.depth [c]) t := by
  constructor
  · intro h
    refine ⟨by simpa using h [] List.nil_prefix, fun p hp => ?_⟩
    have := h (c :: p) (List.cons_prefix_cons.2 ⟨rfl, hp⟩)
    rw [depth_cons] at this
    omega
  · rintro ⟨hd, h⟩ p hp
    rcases List.prefix_cons_iff.1 hp with rfl | ⟨q, rfl, hq⟩
    · simpa using hd
    · have := h q hq
      rw [depth_cons]
      omega

theorem counterpartFrom_cons {d i : Int} {c : Char} :
    b.counterpartFrom d i (c :: t) =
      if c = b.closing ∧ d = 1 then some i else b.counterpartFrom (d + b.depth [c]) (i + 1) t := by
  rw [counterpartFrom]
  by_cases ho : c = b.opening
  · subst ho
    rw [if_pos rfl, if_neg fun h => b.opening_ne_closing h.1, depth_opening]
  · rw [if_neg ho]
    by_cases hc : c = b.closing
    · subst hc
      rw [if_pos rfl, depth_closing]
      by_cases h1 : d = 1
      · rw [if_pos (by omega), if_pos ⟨rfl, h1⟩]
      · rw [if_neg (by omega), if_neg fun h => h1 h.2, Int.sub_eq_add_neg]
    · rw [if_neg hc, if_neg fun h => hc h.1, depth_other ho hc, Int.add_zero]

/-- **Where the counterpart is**: it closes the last group that a text has left open throughout. -/
theorem counterpartFrom_eq_some_iff {d i k : Int} (hd : 0 < d) :
    b.counterpartFrom d i t = some k ↔
      ∃ before after, t = before ++ b.closing :: after ∧ b.StaysIn d before ∧
        d + b.depth before = 1 ∧ k = i + before.length := by
  induction t generalizing d i with
  | nil => simp [counterpartFrom]
  | cons c rest ih =>
    rw [counterpartFrom_cons]
    split
    · next hlast =>
      obtain ⟨rfl, rfl⟩ := hlast
      constructor
      · rintro h
        cases h
        exact ⟨[], rest, rfl, staysIn_nil.2 hd, by simp, by simp⟩
      · rintro ⟨before, after, ht, hstays, hdepth, rfl⟩
        cases before with
        | nil => simp
        | cons c' before =>
          -- the group is closed by the first character already
          obtain ⟨rfl, -⟩ := List.cons.inj ht
          have := (staysIn_cons.1 hstays).2 [] List.nil_prefix
          simp at this
    · next hgoes =>
      by_cases hd' : 0 < d + b.depth [c]
      · rw [ih hd']
        constructor
        · rintro ⟨before, after, rfl, hstays, hdepth, rfl⟩
          refine ⟨c :: before, after, rfl, staysIn_cons.2 ⟨hd, hstays⟩, ?_, ?_⟩
          · rw [depth_cons]; omega
          · rw [List.length_cons]; omega
        · rintro ⟨before, after, ht, hstays, hdepth, rfl⟩
          cases before with
          | nil =>
            obtain ⟨rfl, -⟩ := List.cons.inj ht
            exact absurd ⟨rfl, by simpa using hdepth⟩ hgoes
          | cons c' before =>
            obtain ⟨rfl, rfl⟩ := List.cons.inj ht
            rw [depth_cons] at hdepth
            refine ⟨before, after, rfl, (staysIn_cons.1 hstays).2, by omega, ?_⟩
            rw [List.length_cons]; omega
      · exact absurd (closing_of_depth hd hd') hgoes

/-- There is no counterpart in a text that leaves a group open throughout. -/
theorem counterpartFrom_eq_none_iff {d i : Int} (hd : 0 < d) :
    b.counterpartFrom d i t = none ↔ b.StaysIn d t := by
  induction t generalizing d i with
  | nil => simp [counterpartFrom, staysIn_nil, hd]
  | cons c rest ih =>
    rw [counterpartFrom_cons, staysIn_cons]
    split
    · next hlast =>
      obtain ⟨rfl, rfl⟩ := hlast
      refine ⟨fun h => by simp at h, fun h => ?_⟩
      have := h.2 [] List.nil_prefix
      simp at this
    · next hgoes =>
      by_cases hd' : 0 < d + b.depth [c]
      · rw [ih hd']
        exact ⟨fun h => ⟨hd, h⟩, fun h => h.2⟩
      · exact absurd (closing_of_depth hd hd') hgoes

/-- A balanced text is one that neither leaves the group it stands in nor opens another. -/
theorem balanced_iff : b.Balanced t ↔ b.StaysIn 1 t ∧ b.depth t = 0 := by
  unfold Balanced StaysIn
  simp only [List.mem_inits]
  refine and_congr_left fun _ => forall₂_congr fun p _ => ?_
  omega

theorem Balanced.append {u : Text} (ht : b.Balanced t) (hu : b.Balanced u) : b.Balanced (t ++ u) := by
  refine ⟨fun p hp => ?_, by rw [depth_append, ht.2, hu.2, Int.add_zero]⟩
  rcases List.prefix_or_prefix_of_prefix ((List.mem_inits _ _).1 hp) (List.prefix_append t u) with
    h | ⟨q, rfl⟩
  · exact ht.1 p ((List.mem_inits _ _).2 h)
  · rw [depth_append, ht.2, Int.zero_add]
    exact hu.1 q ((List.mem_inits _ _).2 ((List.prefix_append_right_inj t).1 ((List.mem_inits _ _).1 hp)))

/-- The counterpart of the bracket at the start of the search. -/
theorem counterpart_of_drop {rest : Text} {start : Nat} (h : t.drop start = b.opening :: rest) :
    b.counterpart t start =
      match b.counterpartFrom 1 (start + 1) rest with
      | some index => .ok index
      | none => .error (.unmatched b start) := by
  simp only [counterpart, scanned?, Int.natCast_nonneg, if_true, Int.toNat_natCast, h, counterpartFrom]
  rfl

theorem counterpart_opening (b : Bracket) (t : Text) :
    b.counterpart (b.opening :: t) 0 =
      match b.counterpartFrom 1 1 t with
      | some index => .ok index
      | none => .error (.unmatched b 0) :=
  b.counterpart_of_drop rfl

end

end Bracket

/-! ## Taking off parentheses -/

section
variable {raw inner : Text}

/-- A pair of parentheses is taken off what it wraps, if that is balanced. -/
theorem strip?_eq_some_iff :
    strip? raw = .ok (some inner) ↔
      raw = '(' :: (inner ++ [')']) ∧ Bracket.round.Balanced inner := by
  rw [Bracket.balanced_iff]
  constructor
  · intro h
    unfold strip? at h
    split at h
    · next rest =>
      rw [show '(' :: rest = Bracket.round.opening :: rest from rfl,
        Bracket.counterpart_opening] at h
      split at h
      · cases h
      · next index hindex =>
        split at hindex
        · next k hk =>
          obtain rfl := Except.ok.inj hindex
          obtain ⟨before, after, rfl, hstays, hdepth, rfl⟩ :=
            (Bracket.counterpartFrom_eq_some_iff Int.one_pos).1 hk
          simp only [Except.ok.injEq, Option.ite_none_right_eq_some, Option.some.injEq,
            List.length_append, List.length_cons] at h
          obtain ⟨hlast, rfl⟩ := h
          -- the counterpart is the last character just if nothing stands behind the group
          obtain rfl : after = [] := List.length_eq_zero_iff.1 (by omega)
          rw [List.dropLast_concat]
          exact ⟨rfl, hstays, by omega⟩
        · cases hindex
    · cases h
  · rintro ⟨rfl, hstays, hdepth⟩
    have hk : Bracket.round.counterpartFrom 1 1 (inner ++ [')']) = some (1 + inner.length : Int) :=
      (Bracket.counterpartFrom_eq_some_iff Int.one_pos).2
        ⟨inner, [], rfl, hstays, by omega, rfl⟩
    have hindex : Bracket.round.counterpart ('(' :: (inner ++ [')'])) 0 =
        .ok (1 + inner.length : Int) := by
      rw [show '(' = Bracket.round.opening from rfl, Bracket.counterpart_opening, hk]
    simp only [strip?, hindex, List.length_append, List.length_singleton, List.dropLast_concat]
    rw [if_pos (by omega)]

/-- A text is refused if it leaves the parenthesis that it begins with open. -/
theorem strip?_eq_error_iff {e : Bracket.Error} :
    strip? raw = .error e ↔
      e = .unmatched .round 0 ∧ ∃ rest, raw = '(' :: rest ∧ Bracket.round.StaysIn 1 rest := by
  constructor
  · intro h
    unfold strip? at h
    split at h
    · next rest =>
      rw [show '(' :: rest = Bracket.round.opening :: rest from rfl,
        Bracket.counterpart_opening] at h
      split at h
      · next e' he =>
        split at he
        · cases he
        · next hnone =>
          cases he
          cases h
          exact ⟨rfl, rest, rfl, (Bracket.counterpartFrom_eq_none_iff Int.one_pos).1 hnone⟩
      · cases h
    · cases h
  · rintro ⟨rfl, rest, rfl, hstays⟩
    have hnone := (Bracket.counterpartFrom_eq_none_iff (i := 1) Int.one_pos).2 hstays
    have hindex : Bracket.round.counterpart ('(' :: rest) 0 = .error (.unmatched .round 0) := by
      rw [show '(' = Bracket.round.opening from rfl, Bracket.counterpart_opening, hnone]
    simp only [strip?, hindex]

/-- A balanced text is not refused. -/
theorem strip?_ok_of_balanced (h : Bracket.round.Balanced raw) : ∃ inner?, strip? raw = .ok inner? := by
  cases hs : strip? raw with
  | ok inner? => exact ⟨inner?, rfl⟩
  | error e =>
    obtain ⟨-, rest, rfl, hstays⟩ := strip?_eq_error_iff.1 hs
    have hdepth := h.2
    rw [Bracket.depth_cons, show '(' = Bracket.round.opening from rfl, Bracket.depth_opening] at hdepth
    have := hstays rest List.prefix_rfl
    omega

end

end SyntaxSpans
