import Mathlib.Data.Prod.Lex
import SyntaxSpans.Proofs.Lines

/-!
# Offsets and locations

The recorded starts of lines ascend, so a binary search over them finds the line of an offset
(`lineOf_eq_bisect`): it is the number of line feeds in front of the offset (`location?_split`).
Offsets and pairs of a line and a column lead to each other and back (`location?_of_le`,
`location?_of_line`). An offset on a line feed is on the line that the line feed ends, and the one behind it
begins the next line.
-/

namespace SyntaxSpans

namespace LineMap

/-! ## The starts of lines -/

theorem mem_startsFrom {offset s : Nat} {t : Text} :
    s ∈ startsFrom offset t ↔ ∃ i, t[i]? = some '\n' ∧ s = offset + i + 1 := by
  induction t generalizing offset with
  | nil => simp [startsFrom]
  | cons c rest ih =>
    have hrest : (∃ i, (c :: rest)[i + 1]? = some '\n' ∧ s = offset + (i + 1) + 1) ↔
        s ∈ startsFrom (offset + 1) rest := by
      simp only [ih, List.getElem?_cons_succ]
      constructor <;>
      · rintro ⟨i, hi, hs⟩
        exact ⟨i, hi, by omega⟩
    rw [startsFrom, Nat.or_exists_add_one.symm, hrest]
    by_cases hc : c = '\n' <;> simp [hc]

theorem pairwise_startsFrom (offset : Nat) (t : Text) :
    (startsFrom offset t).Pairwise (· < ·) := by
  induction t generalizing offset with
  | nil => exact List.Pairwise.nil
  | cons c rest ih =>
    rw [startsFrom]
    split
    · refine List.pairwise_cons.2 ⟨fun s hs => ?_, ih _⟩
      obtain ⟨i, -, rfl⟩ := mem_startsFrom.1 hs
      omega
    · exact ih _

theorem mem_starts {source : Text} {s : Nat} :
    s ∈ (ofText source).starts ↔ s = 0 ∨ ∃ i, source[i]? = some '\n' ∧ s = i + 1 := by
  simp [ofText, mem_startsFrom]

theorem pairwise_starts (source : Text) : (ofText source).starts.Pairwise (· < ·) := by
  refine List.pairwise_cons.2 ⟨fun s hs => ?_, pairwise_startsFrom 0 source⟩
  obtain ⟨i, -, rfl⟩ := mem_startsFrom.1 hs
  omega

theorem starts_split (before after : Text) : (ofText (before ++ after)).starts =
    (ofText before).starts ++ startsFrom before.length after := by
  simp [ofText, startsFrom_append]

/-! ## Searching the starts -/

section
variable {xs ys : List Nat} {x : Int} {lo hi r : Nat}

theorem length_takeWhile_append (hxs : ∀ y ∈ xs, (y : Int) ≤ x) (hys : ∀ y ∈ ys, x < y) :
    ((xs ++ ys).takeWhile fun (y : Nat) => (y : Int) ≤ x).length = xs.length := by
  rw [List.takeWhile_append_of_pos (by simpa using hxs)]
  cases ys with
  | nil => simp
  | cons y ys =>
    have hy := hys y List.mem_cons_self
    rw [List.takeWhile_cons_of_neg (by simp; omega), List.append_nil]

/-- The number of entries of an ascending list that are at most `x`, found between `lo` and `hi` by
halving. -/
def bisect (xs : List Nat) (x : Int) (lo hi : Nat) : Nat :=
  if lo < hi then
    if x < ((xs[(lo + hi) / 2]?).getD 0 : Nat) then bisect xs x lo ((lo + hi) / 2)
    else bisect xs x ((lo + hi) / 2 + 1) hi
  else lo
termination_by hi - lo

/-- The entries in front of `lo` are at most `x`, and those from `hi` on are greater. -/
structure Between (xs : List Nat) (x : Int) (lo hi : Nat) : Prop where
  le : lo ≤ hi ∧ hi ≤ xs.length
  before : ∀ i (h : i < xs.length), i < lo → (xs[i] : Int) ≤ x
  behind : ∀ i (h : i < xs.length), hi ≤ i → x < (xs[i] : Int)

/-- Halving keeps the answer between the bounds until they meet. -/
theorem between_bisect (hsorted : xs.Pairwise (· < ·)) (h : Between xs x lo hi) :
    Between xs x (bisect xs x lo hi) (bisect xs x lo hi) := by
  have hle : ∀ i j (hj : j < xs.length) (hij : i ≤ j), xs[i] ≤ xs[j] := by
    intro i j hj hij
    rcases Nat.eq_or_lt_of_le hij with rfl | hlt
    · exact Nat.le_refl _
    · exact Nat.le_of_lt (List.pairwise_iff_getElem.1 hsorted i j (by omega) hj hlt)
  fun_induction bisect xs x lo hi with
  | case1 lo hi hlt hx ih =>
    have hmid : (lo + hi) / 2 < xs.length := by have := h.le; omega
    rw [List.getElem?_eq_getElem hmid, Option.getD_some] at hx
    refine ih ⟨by have := h.le; omega, h.before, fun i hi' hge => ?_⟩
    have := hle _ i hi' hge
    omega
  | case2 lo hi hlt hx ih =>
    have hmid : (lo + hi) / 2 < xs.length := by have := h.le; omega
    rw [List.getElem?_eq_getElem hmid, Option.getD_some] at hx
    refine ih ⟨by have := h.le; omega, fun i hi' hlt' => ?_, h.behind⟩
    have := hle i _ hmid (by omega)
    omega
  | case3 lo hi hnot =>
    obtain rfl : lo = hi := by have := h.le; omega
    exact h

/-- **Halving an ascending list** counts what is at most `x`. -/
theorem bisect_eq (hsorted : xs.Pairwise (· < ·)) :
    bisect xs x 0 xs.length = (xs.takeWhile fun (y : Nat) => (y : Int) ≤ x).length := by
  have hstart : Between xs x 0 xs.length := ⟨by omega, by omega, by omega⟩
  have h := between_bisect hsorted hstart
  generalize bisect xs x 0 xs.length = r at h
  have hbefore : ∀ y ∈ xs.take r, (y : Int) ≤ x := by
    intro y hy
    obtain ⟨i, hi, rfl⟩ := List.mem_take_iff_getElem.1 hy
    exact h.before i (by omega) (by omega)
  have hbehind : ∀ y ∈ xs.drop r, x < (y : Int) := by
    intro y hy
    obtain ⟨i, hi, rfl⟩ := List.mem_drop_iff_getElem.1 hy
    exact h.behind _ (by omega) (by omega)
  have hcut := length_takeWhile_append hbefore hbehind
  rw [List.take_append_drop] at hcut
  simpa [Nat.min_eq_left h.le.2] using hcut.symm

end

/-- The line of an offset is found by a binary search. -/
theorem lineOf_eq_bisect (source : Text) (o : Int) : (ofText source).lineOf o =
    bisect (ofText source).starts o 0 (ofText source).starts.length - 1 := by
  rw [bisect_eq (pairwise_starts source), lineOf]

/-! ## Locations -/

section
variable {source before after line : Text} {l : Nat}

theorem lineOf_split (before after : Text) :
    (ofText (before ++ after)).lineOf before.length = before.count '\n' := by
  rw [lineOf, starts_split, length_takeWhile_append, length_starts, Nat.add_sub_cancel]
  · intro s hs
    rcases mem_starts.1 hs with rfl | ⟨i, hi, rfl⟩
    · omega
    · have := (List.getElem?_eq_some_iff.1 hi).1
      omega
  · intro s hs
    obtain ⟨i, -, rfl⟩ := mem_startsFrom.1 hs
    omega

/-- **The location of a place** is the number of line feeds in front of it, and the distance to the last
of them. -/
theorem location?_split (before after : Text) :
    (ofText (before ++ after)).location? before.length = some (before.count '\n',
      (before.length : Int) - (before.rdropWhile (· != '\n')).length) := by
  have hstart := start?_split before after
  rw [start?, if_pos (Int.natCast_nonneg _), Int.toNat_natCast] at hstart
  have hsize : (ofText (before ++ after)).size = before.length + after.length := List.length_append
  rw [location?, if_pos (by omega)]
  simp only [lineOf_split, hstart, Option.getD_some]

/-- Outside a text there are no locations. -/
theorem location?_eq_none_iff {o : Int} :
    (ofText source).location? o = none ↔ o < 0 ∨ (source.length : Int) < o := by
  have hsize : (ofText source).size = source.length := rfl
  rw [location?, hsize]
  by_cases h : 0 ≤ o ∧ o ≤ (source.length : Int)
  · simp only [if_pos h, reduceCtorEq, false_iff]
    omega
  · simp only [if_neg h, true_iff]
    omega

theorem exists_split_of_location? {o : Int} {p : Nat × Int}
    (h : (ofText source).location? o = some p) : ∃ before after, source = before ++ after ∧
      o = before.length ∧ p = (before.count '\n',
        (before.length : Int) - (before.rdropWhile (· != '\n')).length) := by
  have hin : ¬ (o < 0 ∨ (source.length : Int) < o) := by
    rw [← location?_eq_none_iff, h]
    exact Option.some_ne_none p
  have hlength : (source.take o.toNat).length = o.toNat := by simp; omega
  have hsplit := location?_split (source.take o.toNat) (source.drop o.toNat)
  rw [List.take_append_drop, hlength, Int.toNat_of_nonneg (by omega), h] at hsplit
  refine ⟨source.take o.toNat, source.drop o.toNat, (List.take_append_drop _ _).symm, by omega, ?_⟩
  rw [Option.some.inj hsplit, hlength, Int.toNat_of_nonneg (by omega)]

/-- What stands behind a place on the same line does not move the start of the line. -/
theorem rdropWhile_append (hline : '\n' ∉ line) :
    (before ++ line).rdropWhile (· != '\n') = before.rdropWhile (· != '\n') := by
  induction line using List.reverseRecOn with
  | nil => rw [List.append_nil]
  | append_singleton line c ih =>
    simp only [List.mem_append, List.mem_singleton, not_or] at hline
    rw [← List.append_assoc, List.rdropWhile_concat_pos _ _ _ (by simpa using Ne.symm hline.2)]
    exact ih hline.1

theorem rdropWhile_eq_self (hlast : ∀ c ∈ before.getLast?, c = '\n') :
    before.rdropWhile (· != '\n') = before := by
  rw [List.rdropWhile_eq_self_iff]
  intro hne
  simp [hlast _ (List.getLast?_eq_some_getLast hne)]

/-- A line with what stands in front of it and behind it. -/
theorem exists_split_of_line (h : (source.splitOn '\n')[l]? = some line) :
    ∃ before after, source = before ++ (line ++ after) ∧ before.count '\n' = l ∧
      (∀ c ∈ before.getLast?, c = '\n') ∧ '\n' ∉ line := by
  induction source generalizing l line with
  | nil =>
    cases l with
    | zero =>
      obtain rfl : [] = line := by simpa using h
      exact ⟨[], [], rfl, rfl, by simp, List.not_mem_nil⟩
    | succ l => simp at h
  | cons c rest ih =>
    rw [List.splitOn_cons_eq_if_modifyHead] at h
    by_cases hc : c = '\n'
    · subst hc
      rw [if_pos (by simp)] at h
      cases l with
      | zero =>
        obtain rfl : [] = line := by simpa using h
        exact ⟨[], '\n' :: rest, rfl, rfl, by simp, List.not_mem_nil⟩
      | succ l =>
        obtain ⟨before, after, rfl, hcount, hlast, hline⟩ := ih (by simpa using h)
        refine ⟨'\n' :: before, after, rfl, by simp [hcount], ?_, hline⟩
        cases hb : before.getLast? <;> simp_all [List.getLast?_cons]
    · rw [if_neg (by simpa using hc), List.getElem?_modifyHead] at h
      cases l with
      | zero =>
        obtain ⟨line', hline', rfl⟩ : ∃ line', (rest.splitOn '\n')[0]? = some line' ∧ c :: line' = line := by
          simpa using h
        obtain ⟨before, after, rfl, hcount, hlast, hline⟩ := ih hline'
        -- nothing stands in front of the first line
        obtain rfl : before = [] := by
          by_contra hne
          have hend := hlast _ (List.getLast?_eq_some_getLast hne)
          exact List.count_eq_zero.1 hcount (hend ▸ List.getLast_mem hne)
        exact ⟨[], after, by simp, rfl, by simp, by simp [Ne.symm hc, hline]⟩
      | succ l =>
        obtain ⟨before, after, rfl, hcount, hlast, hline⟩ := ih (by simpa using h)
        refine ⟨c :: before, after, rfl, by simp [hc, hcount], ?_, hline⟩
        have hne : before ≠ [] := by
          rintro rfl
          simp at hcount
        rw [List.getLast?_cons_of_ne_nil hne]
        exact hlast

theorem location?_lt {o o' : Int} {p p' : Nat × Int} (hp : (ofText source).location? o = some p)
    (hp' : (ofText source).location? o' = some p') (hlt : o < o') : toLex p < toLex p' := by
  obtain ⟨before, after, rfl, rfl, rfl⟩ := exists_split_of_location? hp
  obtain ⟨before', after', hsource, rfl, rfl⟩ := exists_split_of_location? hp'
  -- the later place has what is in front of the earlier one in front of it, and some more
  obtain ⟨more, rfl⟩ : before <+: before' :=
    List.prefix_of_prefix_length_le (List.prefix_append _ after) (hsource ▸ List.prefix_append _ _)
      (by omega)
  rw [Prod.Lex.toLex_lt_toLex, List.count_append]
  by_cases hmore : '\n' ∈ more
  · have := List.count_pos_iff.2 hmore
    left
    omega
  · right
    rw [rdropWhile_append hmore]
    simp only [List.count_eq_zero.2 hmore]
    omega

/-- Where an offset is, and back: its line is told by the line feeds in front of it. -/
theorem location?_of_le {source : Text} {o : Nat} (ho : o ≤ source.length) : ∃ first : Nat,
    (ofText source).starts[(source.take o).count '\n']? = some first ∧
    first = ((source.take o).rdropWhile (· != '\n')).length ∧
    (ofText source).location? o = some ((source.take o).count '\n', (o : Int) - first) ∧
    (ofText source).offset? ((source.take o).count '\n' : Nat) ((o : Int) - first) = some (o : Int) := by
  have hlength : (source.take o).length = o := by simp [ho]
  have hstart := start?_split (source.take o) (source.drop o)
  have hlocation := location?_split (source.take o) (source.drop o)
  have hoffset := offset?_split (source.take o) (source.drop o)
  rw [List.take_append_drop, hlength] at hlocation hoffset
  rw [List.take_append_drop, start?, if_pos (Int.natCast_nonneg _), Int.toNat_natCast] at hstart
  exact ⟨_, hstart, rfl, hlocation, hoffset⟩

theorem location?_of_line {source line : Text} {l c : Nat} (hline : (source.splitOn '\n')[l]? = some line)
    (hc : c ≤ line.length) :
    ∃ o, (ofText source).offset? l c = some o ∧ (ofText source).location? o = some (l, (c : Int)) := by
  obtain ⟨before, after, rfl, rfl, hlast, hnone⟩ := exists_split_of_line hline
  -- the offset splits the source behind the first `c` characters of the line
  have hplace : before ++ (line ++ after) = before ++ line.take c ++ (line.drop c ++ after) := by
    rw [List.append_assoc, ← List.append_assoc (line.take c), List.take_append_drop]
  have hnone' : '\n' ∉ line.take c := fun h => hnone (List.mem_of_mem_take h)
  have hlocation := location?_split (before ++ line.take c) (line.drop c ++ after)
  have hoffset := offset?_split (before ++ line.take c) (line.drop c ++ after)
  rw [rdropWhile_append hnone', rdropWhile_eq_self hlast, ← hplace] at hlocation hoffset
  have hlength : ((before ++ line.take c).length : Int) - before.length = c := by simp; omega
  rw [hlength, List.count_append, List.count_eq_zero.2 hnone', Nat.add_zero] at hlocation hoffset
  exact ⟨_, hoffset, hlocation⟩

/-- Offsets have the order of their locations. -/
theorem lt_iff_of_location? {source : Text} {o o' : Int} {p p' : Nat × Int}
    (h : (ofText source).location? o = some p) (h' : (ofText source).location? o' = some p') :
    o < o' ↔ toLex p < toLex p' := by
  refine ⟨location?_lt h h', fun hlt => ?_⟩
  rcases Int.lt_trichotomy o o' with hlt' | rfl | hgt
  · exact hlt'
  · rw [h] at h'
    exact absurd hlt (Option.some.inj h' ▸ lt_irrefl _)
  · exact absurd hlt (lt_asymm (location?_lt h' h hgt))

/-- **Offsets and locations are inverse to each other.** The recorded starts of lines ascend, and are the
beginning of the text and the offsets behind its line feeds. -/
theorem locations_inverse (source : Text) :
    let m := ofText source
    m.starts.Pairwise (· < ·) ∧
    (∀ s, s ∈ m.starts ↔ s = 0 ∨ ∃ i, source[i]? = some '\n' ∧ s = i + 1) ∧
    (∀ o, m.lineOf o = bisect m.starts o 0 m.starts.length - 1) ∧
    (∀ o : Nat, o ≤ source.length → ∃ first : Nat,
      m.starts[(source.take o).count '\n']? = some first ∧
      first = ((source.take o).rdropWhile (· != '\n')).length ∧
      m.location? o = some ((source.take o).count '\n', (o : Int) - first) ∧
      m.offset? ((source.take o).count '\n' : Nat) ((o : Int) - first) = some (o : Int)) ∧
    (∀ (l : Nat) (line : Text), (source.splitOn '\n')[l]? = some line → ∀ c : Nat, c ≤ line.length →
      ∃ o, m.offset? l c = some o ∧ m.location? o = some (l, (c : Int))) ∧
    (∀ o o' p p', m.location? o = some p → m.location? o' = some p' →
      (o < o' ↔ toLex p < toLex p')) ∧
    ∀ o, m.location? o = none ↔ o < 0 ∨ (source.length : Int) < o := by
  intro m
  exact ⟨pairwise_starts source, fun s => mem_starts, lineOf_eq_bisect source,
    fun o ho => location?_of_le ho, fun l line hline c hc => location?_of_line hline hc,
    fun o o' p p' hp hp' => lt_iff_of_location? hp hp', fun o => location?_eq_none_iff⟩

/-- The offset between two line feeds is on an empty line, behind the one in front of both. -/
theorem locations_inverse_emptyLine :
    let source := ['a', '\n', '\n', 'b']
    let m := ofText source
    2 ≤ source.length ∧ (source.splitOn '\n')[1]? = some [] ∧ m.location? 1 = some (0, 1) ∧
      m.location? 2 = some (1, 0) ∧ m.offset? 1 0 = some 2 ∧
      (∃ o, m.offset? 1 0 = some o ∧ m.location? o = some (1, 0)) ∧
      toLex ((0, 1) : Nat × Int) < toLex (1, 0) := by
  intro source m
  obtain ⟨-, -, -, hplace, hline, hlt, -⟩ := locations_inverse source
  have hempty : (source.splitOn '\n')[1]? = some [] := by decide
  have hbefore : m.location? 1 = some (0, 1) := by decide
  obtain ⟨first, -, rfl, hlocation, hoffset⟩ := hplace 2 (by decide)
  exact ⟨by decide, hempty, hbefore, hlocation, hoffset, hline 1 [] hempty 0 (Nat.le_refl 0),
    (hlt 1 2 _ _ hbefore hlocation).1 (by decide)⟩

end

end LineMap

end SyntaxSpans
