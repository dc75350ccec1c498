/-!
# Text

Source text as a sequence of code points, and the two ways in which the library addresses a
sequence: by a signed index, where a negative one counts from the end, and by a half-open slice,
whose bounds are read the same way and then clipped. A slice never fails; an index may.
-/

namespace SyntaxSpans

/-- Text as its code points. Every offset, column and length of the library counts these. -/
abbrev Text := List Char

section Slices

variable {α : Type}

/-- Where a signed bound cuts a sequence of `n` elements: negative bounds count from the end, and
all bounds are clipped to the sequence. -/
def cut (n : Nat) (i : Int) : Nat :=
  if 0 ≤ i then min i.toNat n else (i + n).toNat

/-- The elements from bound `start` up to bound `stop`; none when the bounds cross. -/
def slice (xs : List α) (start stop : Int) : List α :=
  (xs.take (cut xs.length stop)).drop (cut xs.length start)

def at? (xs : List α) (i : Int) : Option α :=
  if 0 ≤ i then xs[i.toNat]?
  else if 0 ≤ i + xs.length then xs[(i + xs.length).toNat]?
  else none

theorem cut_le (n : Nat) (i : Int) : cut n i ≤ n := by
  unfold cut; split <;> omega

theorem cut_natCast {n k : Nat} (h : k ≤ n) : cut n (k : Int) = k := by
  unfold cut; split <;> omega

theorem length_slice (xs : List α) (start stop : Int) :
    (slice xs start stop).length = cut xs.length stop - cut xs.length start := by
  have := cut_le xs.length stop
  simp [slice]; omega

theorem slice_natCast (xs : List α) {a b : Nat} (hb : b ≤ xs.length) (ha : a ≤ xs.length) :
    slice xs a b = (xs.take b).drop a := by
  simp [slice, cut_natCast hb, cut_natCast ha]

end Slices

end SyntaxSpans
