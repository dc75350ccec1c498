import Mathlib.Data.List.DropRight
import SyntaxSpans.Position

/-!
# Where the lines of a text start

The line that a place is on has as many lines in front of it as there are line feeds, and starts behind
the last of them (`start?_split`), so a line and a column counted from there lead back to the place
(`offset?_split`).
-/

namespace SyntaxSpans

namespace LineMap

theorem startsFrom_append (offset : Nat) (t u : Text) :
    startsFrom offset (t ++ u) = startsFrom offset t ++ startsFrom (offset + t.length) u := by
  induction t generalizing offset with
  | nil => rfl
  | cons c rest ih =>
    rw [List.cons_append, startsFrom, startsFrom, ih, List.length_cons,
      show offset + 1 + rest.length = offset + (rest.length + 1) by omega]
    split <;> rfl

theorem length_startsFrom (offset : Nat) (t : Text) :
    (startsFrom offset t).length = t.count '\n' := by
  induction t generalizing offset with
  | nil => rfl
  | cons c rest ih =>
    rw [startsFrom]
    split
    · next hc => rw [hc, List.length_cons, ih, List.count_cons_self]
    · next hc => rw [ih, List.count_cons_of_ne hc]

theorem length_starts (source : Text) : (ofText source).starts.length = source.count '\n' + 1 := by
  rw [ofText, List.length_cons, length_startsFrom]

/-- The last line of a text starts behind its last line feed. -/
theorem last_start (t : Text) : (0 :: startsFrom 0 t)[t.count '\n']? =
    some (t.rdropWhile (· != '\n')).length := by
  induction t using List.reverseRecOn with
  | nil => rfl
  | append_singleton t c ih =>
    rw [startsFrom_append, Nat.zero_add, List.count_append]
    by_cases hc : c = '\n'
    · subst hc
      have hstarts : startsFrom t.length ['\n'] = [t.length + 1] := rfl
      rw [hstarts, List.count_singleton_self, List.getElem?_cons_succ,
        List.getElem?_append_right (Nat.le_of_eq (length_startsFrom 0 t)), length_startsFrom,
        Nat.sub_self, List.rdropWhile_concat_neg _ _ _ (by simp), List.length_append]
      rfl
    · have hstarts : startsFrom t.length [c] = [] := if_neg hc
      have hcount : [c].count '\n' = 0 := List.count_eq_zero.2 (by simpa using Ne.symm hc)
      rw [hstarts, hcount, List.append_nil, Nat.add_zero, ih,
        List.rdropWhile_concat_pos _ _ _ (by simpa using hc)]

section
variable (before after : Text)

/-- **The line of a place** inside a text starts behind the last line feed in front of the place. -/
theorem start?_split : (ofText (before ++ after)).start? (before.count '\n' : Nat) =
    some (before.rdropWhile (· != '\n')).length := by
  have hlt : before.count '\n' < (0 :: startsFrom 0 before).length := by
    rw [List.length_cons, length_startsFrom]
    exact Nat.lt_succ_self _
  rw [start?, if_pos (Int.natCast_nonneg _), Int.toNat_natCast, ofText, startsFrom_append,
    ← List.cons_append, List.getElem?_append_left hlt, last_start]

/-- **The way back to a place** leads over its line and its column. -/
theorem offset?_split : (ofText (before ++ after)).offset? (before.count '\n' : Nat)
    ((before.length : Int) - (before.rdropWhile (· != '\n')).length) = some (before.length : Int) := by
  have hline : ((before.rdropWhile (· != '\n')).length : Int) +
      ((before.length : Int) - (before.rdropWhile (· != '\n')).length) = before.length := by omega
  rw [offset?, start?_split]
  exact congrArg some hline

end

end LineMap

end SyntaxSpans
