/-!
# Sets of characters by their boundaries

A set of code points is written as the ascending list of the points at which membership changes,
starting from "not in the set". Properties that the Unicode standard assigns in long runs become
short tables this way.
-/

namespace SyntaxSpans

/-- The ascending code points at which membership in a set of characters begins or ends. -/
structure CharSet where
  boundaries : List Nat

namespace CharSet

/-- A code point is in the set iff an odd number of boundaries is at or below it. -/
def contains (s : CharSet) (c : Char) : Bool :=
  go false s.boundaries
where
  /-- Walks the boundaries with the membership that the ones passed so far give. -/
  go (inside : Bool) : List Nat → Bool
    | [] => inside
    | b :: rest => if b ≤ c.toNat then go (!inside) rest else inside

instance : Membership Char CharSet := ⟨fun s c => s.contains c = true⟩

instance (s : CharSet) (c : Char) : Decidable (c ∈ s) :=
  inferInstanceAs (Decidable (s.contains c = true))

end CharSet

end SyntaxSpans
