import Mathlib.Order.Bounds.Basic
import SyntaxSpans.Proofs.Stripping

/-!
# The counterpart of a bracket

The search for a counterpart keeps count and looks at the count at closing brackets only. That is enough
to find the first index at which a text is level again: there the group ends that the bracket begins
(`isLeast_levelAt_iff`). Read as a word over the two brackets, a group is balanced and nothing in front of
its end is (`primitive_slice_iff`). Balanced words are given by their grammar (`Word`), and
`word_brackets_iff` says that counting recognizes them. That what stands up to an index is such a word does
not put the counterpart there: behind the counterpart other characters may follow, which are not part of
the word.
-/

namespace SyntaxSpans

namespace Bracket

/-! ## Balanced words -/

/-- The balanced words over the brackets of a kind: the empty one, and a group in front of one. -/
inductive Word (b : Bracket) : Text → Prop where
  | nil : Word b []
  | group {inner rest : Text} (hinner : Word b inner) (hrest : Word b rest) :
    Word b (b.opening :: (inner ++ b.closing :: rest))

/-- A balanced word that does not begin with a shorter one, apart from the empty one. -/
structure Primitive (b : Bracket) (w : Text) : Prop where
  word : b.Word w
  least : ∀ p, p <+: w → p ≠ [] → p ≠ w → ¬ b.Word p

/-- The text with all characters erased that are no brackets of the kind. -/
def brackets (b : Bracket) (t : Text) : Text := t.filter fun c => c = b.opening || c = b.closing

/-- From `start` to `k`, both included, as many brackets are closed as opened. -/
def LevelAt (b : Bracket) (t : Text) (start k : Nat) : Prop :=
  start < k ∧ k < t.length ∧
    (slice t start (k + 1)).count b.opening = (slice t start (k + 1)).count b.closing

section
variable {b : Bracket} {t u : Text}

theorem depth_eq_zero_iff : b.depth t = 0 ↔ t.count b.opening = t.count b.closing := by
  unfold depth
  omega

theorem Balanced.wrap (h : b.Balanced t) : b.Balanced (b.opening :: (t ++ [b.closing])) := by
  have htotal : b.depth (b.opening :: (t ++ [b.closing])) = 0 := by
    rw [depth_cons, depth_append, depth_opening, depth_closing, h.2]
    rfl
  refine ⟨fun p hp => ?_, htotal⟩
  rcases List.prefix_cons_iff.1 ((List.mem_inits _ _).1 hp) with rfl | ⟨q, rfl, hq⟩
  · exact Int.le_refl 0
  · rcases List.prefix_concat_iff.1 hq with rfl | hq
    · exact Int.le_of_eq htotal.symm
    · have := h.1 q ((List.mem_inits _ _).2 hq)
      rw [depth_cons, depth_opening]
      omega

/-- A text that does not leave its groups open closes the last of them somewhere. -/
theorem exists_closing_of_not_staysIn {d : Int} (hd : 0 < d) (h : ¬ b.StaysIn d t) :
    ∃ before after, t = before ++ b.closing :: after ∧ b.StaysIn d before ∧
      d + b.depth before = 1 := by
  rw [← counterpartFrom_eq_none_iff (i := 0) hd] at h
  obtain ⟨k, hk⟩ := Option.ne_none_iff_exists'.1 h
  obtain ⟨before, after, ht, hstays, hdepth, -⟩ := (counterpartFrom_eq_some_iff hd).1 hk
  exact ⟨before, after, ht, hstays, hdepth⟩

theorem Word.balanced (h : b.Word t) : b.Balanced t := by
  induction h with
  | nil => exact ⟨by simp, rfl⟩
  | @group inner rest _ _ hinner hrest =>
    have hsplit : b.opening :: (inner ++ b.closing :: rest) =
        b.opening :: (inner ++ [b.closing]) ++ rest := by simp
    rw [hsplit]
    exact hinner.wrap.append hrest

theorem word_of_balanced {t : Text} (h : b.Balanced t) (ht : ∀ c ∈ t, c = b.opening ∨ c = b.closing) :
    b.Word t := by
  cases t with
  | nil => exact .nil
  | cons c rest =>
    have hbegins : ∀ p, p <+: c :: rest → 0 ≤ b.depth p := fun p hp =>
      h.1 p ((List.mem_inits _ _).2 hp)
    rcases ht c List.mem_cons_self with rfl | rfl
    -- the first group ends, or the whole text would stay inside it
    · have hends : ¬ b.StaysIn 1 rest := by
        intro hstays
        have hdepth := h.2
        have := hstays rest List.prefix_rfl
        rw [depth_cons, depth_opening] at hdepth
        omega
      obtain ⟨inner, after, rfl, hstays, hdepth⟩ := exists_closing_of_not_staysIn Int.one_pos hends
      have hinner : b.Balanced inner := balanced_iff.2 ⟨hstays, by omega⟩
      -- a group counts for nothing, so that the rest is balanced if the whole is
      have hafter : b.Balanced after := by
        have hsplit : ∀ q : Text, b.depth (b.opening :: (inner ++ b.closing :: q)) = b.depth q := by
          intro q
          rw [depth_cons, depth_append, depth_cons b.closing, depth_opening, depth_closing, hinner.2]
          omega
        refine ⟨fun q hq => ?_, by rw [← hsplit, h.2]⟩
        rw [← hsplit]
        refine hbegins _ (List.cons_prefix_cons.2 ⟨rfl, ?_⟩)
        exact (List.prefix_append_right_inj inner).2
          (List.cons_prefix_cons.2 ⟨rfl, (List.mem_inits _ _).1 hq⟩)
      exact .group (word_of_balanced hinner fun c hc => ht c (by simp [hc]))
        (word_of_balanced hafter fun c hc => ht c (by simp [hc]))
    · have := hbegins [b.closing] (List.cons_prefix_cons.2 ⟨rfl, List.nil_prefix⟩)
      rw [depth_closing] at this
      omega
termination_by t.length

/-! ## Texts as words -/

theorem brackets_append (t u : Text) : b.brackets (t ++ u) = b.brackets t ++ b.brackets u :=
  List.filter_append t u

theorem mem_brackets {c : Char} (ht : c ∈ t) (hc : c = b.opening ∨ c = b.closing) :
    c ∈ b.brackets t :=
  List.mem_filter.2 ⟨ht, by simpa using hc⟩

/-- Other characters do not count. -/
theorem depth_brackets (t : Text) : b.depth (b.brackets t) = b.depth t := by
  rw [depth, depth, brackets, List.count_filter (by simp), List.count_filter (by simp)]

theorem balanced_brackets : b.Balanced (b.brackets t) ↔ b.Balanced t := by
  unfold Balanced
  simp only [List.mem_inits, depth_brackets]
  refine and_congr_left fun _ => ⟨fun h p hp => ?_, fun h p hp => ?_⟩
  · rw [← depth_brackets]
    exact h _ (hp.filter _)
  · obtain ⟨q, hq, rfl⟩ := List.prefix_filter_iff.1 hp
    rw [show q.filter _ = b.brackets q from rfl, depth_brackets]
    exact h q hq

/-- **Counting recognizes balanced words.** -/
theorem word_brackets_iff : b.Word (b.brackets t) ↔ b.Balanced t := by
  rw [← balanced_brackets]
  refine ⟨Word.balanced, fun h => word_of_balanced h fun c hc => ?_⟩
  simpa using (List.mem_filter.1 hc).2

theorem primitive_of_balanced (h : b.Balanced t) :
    b.Primitive (b.brackets (b.opening :: (t ++ [b.closing]))) := by
  refine ⟨word_brackets_iff.2 h.wrap, fun p hp hne hproper hword => ?_⟩
  obtain ⟨q, hq, rfl⟩ := List.prefix_filter_iff.1 hp
  rcases List.prefix_cons_iff.1 hq with rfl | ⟨q', rfl, hq'⟩
  · exact hne rfl
  rcases List.prefix_concat_iff.1 hq' with rfl | hinit
  · exact hproper rfl
  · -- inside the pair one bracket at least is still open
    have hinside := h.1 q' ((List.mem_inits _ _).2 hinit)
    have hlevel := (word_brackets_iff.1 hword).2
    rw [depth_cons, depth_opening] at hlevel
    omega

/-- What a primitive word begins with is level only at its end, if a bracket stands there. -/
theorem not_level_of_primitive {v : Text} (h : b.Primitive (b.brackets (b.opening :: (u ++ v))))
    (hv : b.closing ∈ v) : b.depth (b.opening :: u) ≠ 0 := by
  intro hlevel
  have hsplit : b.brackets (b.opening :: (u ++ v)) = b.brackets (b.opening :: u) ++ b.brackets v :=
    brackets_append (b.opening :: u) v
  have hbalanced := word_brackets_iff.1 h.word
  refine h.least (b.brackets (b.opening :: u)) (hsplit ▸ List.prefix_append _ _) ?_ ?_ ?_
  · exact List.ne_nil_of_mem (mem_brackets List.mem_cons_self (Or.inl rfl))
  · rw [hsplit]
    intro hsame
    have hnone := List.self_eq_append_right.1 hsame
    exact List.ne_nil_of_mem (mem_brackets hv (Or.inr rfl)) hnone
  · refine word_brackets_iff.2 ⟨fun p hp => hbalanced.1 p ((List.mem_inits _ _).2 ?_), hlevel⟩
    exact ((List.mem_inits _ _).1 hp).trans (List.prefix_append (b.opening :: u) v)

/-- **A text in a pair of brackets** is a primitive word if it is balanced, and only then. -/
theorem primitive_iff :
    b.Primitive (b.brackets (b.opening :: (t ++ [b.closing]))) ↔ b.Balanced t := by
  refine ⟨fun h => ?_, primitive_of_balanced⟩
  obtain ⟨hbegins, htotal⟩ := word_brackets_iff.1 h.word
  rw [depth_cons, depth_append, depth_opening, depth_closing] at htotal
  refine balanced_iff.2 ⟨fun p hp => ?_, by omega⟩
  obtain ⟨v, rfl⟩ := hp
  rw [List.append_assoc] at h hbegins
  have hge := hbegins (b.opening :: p)
    ((List.mem_inits _ _).2 (List.cons_prefix_cons.2 ⟨rfl, List.prefix_append _ _⟩))
  have hne := not_level_of_primitive h (List.mem_append_right v List.mem_cons_self)
  rw [depth_cons, depth_opening] at hge hne
  omega

/-! ## Where a group ends -/

variable {start k : Nat}

/-- The group that begins at `start` ends at `k`. -/
def GroupAt (b : Bracket) (t : Text) (start k : Nat) : Prop :=
  ∃ inner after, t.drop start = b.opening :: (inner ++ b.closing :: after) ∧ b.Balanced inner ∧
    k = start + inner.length + 1

theorem slice_of_drop {c : Char} {rest : Text} (h : t.drop start = c :: rest) (n : Nat) :
    slice t start ((start + n : Nat) + 1) = c :: rest.take n := by
  rw [Int.natCast_add, Int.add_assoc, ← Int.natCast_one, ← Int.natCast_add, slice_add, h,
    List.take_succ_cons]

theorem length_of_drop {c : Char} {rest : Text} (h : t.drop start = c :: rest) :
    t.length = start + (rest.length + 1) := by
  have := congrArg List.length h
  rw [List.length_drop, List.length_cons] at this
  omega

theorem drop_of_opening (hopen : t[start]? = some b.opening) :
    t.drop start = b.opening :: t.drop (start + 1) := by
  rw [List.drop_eq_getElem?_toList_append, hopen]
  rfl

theorem levelAt_iff {rest : Text} (h : t.drop start = b.opening :: rest) :
    b.LevelAt t start k ↔ ∃ n, n ≤ rest.length ∧ 1 + b.depth (rest.take n) = 0 ∧ k = start + n := by
  have hlength := length_of_drop h
  constructor
  · rintro ⟨hlt, hk, hlevel⟩
    obtain ⟨n, rfl⟩ := Nat.exists_eq_add_of_le (Nat.le_of_lt hlt)
    rw [slice_of_drop h, ← depth_eq_zero_iff, depth_cons, depth_opening] at hlevel
    exact ⟨n, by omega, hlevel, rfl⟩
  · rintro ⟨n, hn, hlevel, rfl⟩
    have hpos : n ≠ 0 := by
      rintro rfl
      rw [List.take_zero, depth_nil] at hlevel
      omega
    refine ⟨by omega, by omega, ?_⟩
    rw [slice_of_drop h, ← depth_eq_zero_iff, depth_cons, depth_opening, hlevel]

theorem GroupAt.isLeast (h : b.GroupAt t start k) : IsLeast {k | b.LevelAt t start k} k := by
  obtain ⟨inner, after, hdrop, hinner, rfl⟩ := h
  obtain ⟨hstays, hdepth⟩ := balanced_iff.1 hinner
  constructor
  · refine (levelAt_iff hdrop).2 ⟨inner.length + 1, by simp, ?_, rfl⟩
    rw [List.take_length_add_append, List.take_succ_cons, List.take_zero, depth_append, hdepth,
      depth_closing]
    rfl
  · intro j hj
    obtain ⟨n, -, hlevel, rfl⟩ := (levelAt_iff hdrop).1 hj
    by_contra hlt
    rw [List.take_append_of_le_length (by omega)] at hlevel
    have := hstays _ (List.take_prefix n inner)
    omega

theorem LevelAt.exists_groupAt (hopen : t[start]? = some b.opening) (h : b.LevelAt t start k) :
    ∃ k, b.GroupAt t start k := by
  have hdrop := drop_of_opening hopen
  obtain ⟨n, -, hlevel, -⟩ := (levelAt_iff hdrop).1 h
  have hends : ¬ b.StaysIn 1 (t.drop (start + 1)) := by
    intro hstays
    have := hstays _ (List.take_prefix n _)
    omega
  obtain ⟨inner, after, hrest, hstays, hdepth⟩ := exists_closing_of_not_staysIn Int.one_pos hends
  rw [hrest] at hdrop
  exact ⟨_, inner, after, hdrop, balanced_iff.2 ⟨hstays, by omega⟩, rfl⟩

/-- **A group ends where its text is level for the first time.** -/
theorem isLeast_levelAt_iff (hopen : t[start]? = some b.opening) :
    IsLeast {k | b.LevelAt t start k} k ↔ b.GroupAt t start k := by
  refine ⟨fun h => ?_, GroupAt.isLeast⟩
  obtain ⟨k', hk'⟩ := LevelAt.exists_groupAt hopen h.1
  rwa [h.unique hk'.isLeast]

theorem closing_iff (hopen : t[start]? = some b.opening) :
    (start < k ∧ t[k]? = some b.closing) ↔
      ∃ inner after, t.drop start = b.opening :: (inner ++ b.closing :: after) ∧
        k = start + inner.length + 1 := by
  constructor
  · rintro ⟨hlt, hclose⟩
    obtain ⟨n, rfl⟩ := Nat.exists_eq_add_of_le hlt
    rw [← List.getElem?_drop] at hclose
    obtain ⟨hn, -⟩ := List.getElem?_eq_some_iff.1 hclose
    refine ⟨(t.drop (start + 1)).take n, (t.drop (start + 1)).drop (n + 1), ?_, ?_⟩
    · rw [drop_of_opening hopen]
      congr 1
      conv_lhs => rw [← List.take_append_drop n (t.drop (start + 1)),
        List.drop_eq_getElem?_toList_append (l := t.drop (start + 1)), hclose]
      rfl
    · rw [List.length_take, Nat.min_eq_left (Nat.le_of_lt hn)]
      omega
  · rintro ⟨inner, after, hdrop, rfl⟩
    refine ⟨by omega, ?_⟩
    rw [Nat.add_assoc, ← List.getElem?_drop, hdrop, List.getElem?_cons_succ]
    rw [List.getElem?_append_right (Nat.le_refl _), Nat.sub_self]
    rfl

theorem slice_of_group {inner after : Text}
    (h : t.drop start = b.opening :: (inner ++ b.closing :: after)) :
    slice t start ((start + inner.length + 1 : Nat) + 1) = b.opening :: (inner ++ [b.closing]) := by
  rw [Nat.add_assoc, slice_of_drop h, List.take_length_add_append]
  rfl

/-- **A group is a primitive word** that ends with a bracket. -/
theorem primitive_slice_iff (hopen : t[start]? = some b.opening) :
    (start < k ∧ t[k]? = some b.closing ∧ b.Primitive (b.brackets (slice t start (k + 1)))) ↔
      b.GroupAt t start k := by
  rw [← and_assoc, closing_iff hopen]
  constructor
  · rintro ⟨⟨inner, after, hdrop, rfl⟩, hprimitive⟩
    rw [slice_of_group hdrop, primitive_iff] at hprimitive
    exact ⟨inner, after, hdrop, hprimitive, rfl⟩
  · rintro ⟨inner, after, hdrop, hinner, rfl⟩
    refine ⟨⟨inner, after, hdrop, rfl⟩, ?_⟩
    rw [slice_of_group hdrop, primitive_iff]
    exact hinner

theorem GroupAt.opens (h : b.GroupAt t start k) : t[start]? = some b.opening := by
  obtain ⟨inner, after, hdrop, -⟩ := h
  rw [← Nat.add_zero start, ← List.getElem?_drop, hdrop]
  rfl

theorem GroupAt.of_take (h : b.GroupAt t start k) (hu : u.take (k + 1) = t.take (k + 1)) :
    b.GroupAt u start k := by
  obtain ⟨inner, after, hdrop, hinner, rfl⟩ := h
  refine ⟨inner, u.drop (start + inner.length + 1 + 1), ?_, hinner, rfl⟩
  have hlength := length_of_drop hdrop
  rw [List.length_append, List.length_cons] at hlength
  have hbegin : (t.take (start + inner.length + 1 + 1)).drop start =
      b.opening :: (inner ++ [b.closing]) := by
    rw [List.drop_take, hdrop, show start + inner.length + 1 + 1 - start = inner.length + 1 + 1 by omega,
      List.take_succ_cons, List.take_length_add_append]
    rfl
  calc u.drop start
      = (u.take (start + inner.length + 1 + 1) ++ u.drop (start + inner.length + 1 + 1)).drop start := by
        rw [List.take_append_drop]
    _ = b.opening :: (inner ++ [b.closing]) ++ u.drop (start + inner.length + 1 + 1) := by
        rw [hu, List.drop_append_of_le_length (by rw [List.length_take]; omega), hbegin]
    _ = _ := by simp

/-! ## The search -/

theorem ofOpening?_opening (b : Bracket) : ofOpening? (String.singleton b.opening) = some b := by
  cases b <;> decide

/-- **The search finds where the group ends.** -/
theorem counterpart_eq_ok_iff {i : Int} (hopen : t[start]? = some b.opening) :
    b.counterpart t start = .ok i ↔ ∃ k : Nat, i = k ∧ b.GroupAt t start k := by
  rw [counterpart_of_drop (drop_of_opening hopen)]
  constructor
  · intro h
    split at h
    · next index hindex =>
      obtain rfl := Except.ok.inj h
      obtain ⟨inner, after, hrest, hstays, hdepth, rfl⟩ :=
        (counterpartFrom_eq_some_iff Int.one_pos).1 hindex
      refine ⟨start + inner.length + 1, by omega, inner, after, ?_, balanced_iff.2 ⟨hstays, by omega⟩, rfl⟩
      rw [drop_of_opening hopen, hrest]
    · cases h
  · rintro ⟨k, rfl, inner, after, hdrop, hinner, rfl⟩
    obtain ⟨hstays, hdepth⟩ := balanced_iff.1 hinner
    rw [drop_of_opening hopen] at hdrop
    rw [(counterpartFrom_eq_some_iff Int.one_pos).2
      ⟨inner, after, (List.cons.inj hdrop).2, hstays, by omega, rfl⟩]
    simp only [Except.ok.injEq]
    omega

theorem counterpart_eq_error_iff (hopen : t[start]? = some b.opening) :
    b.counterpart t start = .error (.unmatched b start) ↔ ¬ ∃ k, b.LevelAt t start k := by
  constructor
  · rintro h ⟨k, hk⟩
    obtain ⟨k, hk⟩ := hk.exists_groupAt hopen
    rw [(counterpart_eq_ok_iff hopen).2 ⟨k, rfl, hk⟩] at h
    cases h
  · intro h
    cases hc : b.counterpart t start with
    | ok i =>
      obtain ⟨k, -, hk⟩ := (counterpart_eq_ok_iff hopen).1 hc
      exact absurd ⟨k, hk.isLeast.1⟩ h
    | error e =>
      rw [counterpart_of_drop (drop_of_opening hopen)] at hc
      split at hc
      · cases hc
      · rw [hc]

/-- A character as the search sees it: any other than the brackets of the kind is like any other. -/
def seen (b : Bracket) (c : Char) : Option Char :=
  if c = b.opening ∨ c = b.closing then some c else none

theorem eq_or_other_of_seen {c c' : Char} (h : b.seen c' = b.seen c) :
    c' = c ∨ (∀ x ∈ [c', c], x ≠ b.opening ∧ x ≠ b.closing) := by
  unfold seen at h
  split at h <;> split at h
  · exact Or.inl (Option.some.inj h)
  · cases h
  · cases h
  · refine Or.inr ?_
    simp only [List.mem_cons, List.not_mem_nil, or_false]
    rintro x (rfl | rfl) <;> tauto

theorem counterpartFrom_congr {d i : Int} (h : u.map b.seen = t.map b.seen) :
    b.counterpartFrom d i u = b.counterpartFrom d i t := by
  induction t generalizing u d i with
  | nil => rw [List.map_eq_nil_iff.1 h]
  | cons c t ih =>
    obtain ⟨c', u, rfl, hc, hu⟩ := List.map_eq_cons_iff.1 h
    rw [counterpartFrom_cons, counterpartFrom_cons, ih hu]
    rcases eq_or_other_of_seen hc with rfl | hother
    · rfl
    · obtain ⟨⟨ho', hc'⟩, ho, hc⟩ := And.intro (hother c' (by simp)) (hother c (by simp))
      rw [depth_other ho' hc', depth_other ho hc, if_neg fun h => hc' h.1, if_neg fun h => hc h.1]

theorem counterpart_congr (h : u.map b.seen = t.map b.seen) (start : Int) :
    b.counterpart u start = b.counterpart t start := by
  have hscanned : (scanned? u start).map (List.map b.seen) = (scanned? t start).map (List.map b.seen) := by
    have hlength : u.length = t.length := by simpa using congrArg List.length h
    unfold scanned?
    rw [hlength]
    split
    · simp only [Option.map_some, List.map_drop, h]
    · split
      · simp only [Option.map_some, List.map_append, List.map_drop, h]
      · rfl
  unfold counterpart
  cases hu : scanned? u start with
  | none =>
    rw [hu] at hscanned
    rw [Option.map_eq_none_iff.1 hscanned.symm]
  | some v =>
    rw [hu] at hscanned
    obtain ⟨w, hw, hvw⟩ := Option.map_eq_some_iff.1 hscanned.symm
    simp only [hw, counterpartFrom_congr hvw]

/-- **Where the counterpart is.** It stands where a text is level for the first time, which is the end of
the primitive word that begins with the bracket, and the search fails if there is no such place. Neither
what stands behind nor characters of another kind matter. -/
theorem find_counterpart (b : Bracket) (t : Text) (start : Nat) (hopen : t[start]? = some b.opening) :
    (∀ i, find (String.singleton b.opening) t start = .ok i ↔
      ∃ k : Nat, i = k ∧ IsLeast {k | b.LevelAt t start k} k) ∧
    (∀ k : Nat, IsLeast {k | b.LevelAt t start k} k ↔
      start < k ∧ t[k]? = some b.closing ∧ b.Primitive (b.brackets (slice t start (k + 1)))) ∧
    (find (String.singleton b.opening) t start = .error (.unmatched b start) ↔
      ¬ ∃ k, b.LevelAt t start k) ∧
    (∀ i u, find (String.singleton b.opening) t start = .ok i →
      u.take (i.toNat + 1) = t.take (i.toNat + 1) →
      find (String.singleton b.opening) u start = .ok i) ∧
    ∀ u, u.map b.seen = t.map b.seen →
      find (String.singleton b.opening) u start = find (String.singleton b.opening) t start := by
  have hfind : ∀ u, find (String.singleton b.opening) u start = b.counterpart u start := fun u => by
    rw [find, ofOpening?_opening]
  simp only [hfind]
  refine ⟨fun i => ?_, fun k => ?_, counterpart_eq_error_iff hopen, fun i u h hu => ?_, fun u h =>
    counterpart_congr h start⟩
  · rw [counterpart_eq_ok_iff hopen]
    simp only [isLeast_levelAt_iff hopen]
  · rw [isLeast_levelAt_iff hopen, primitive_slice_iff hopen]
  · obtain ⟨k, rfl, hk⟩ := (counterpart_eq_ok_iff hopen).1 h
    have hgroup := hk.of_take hu
    exact (counterpart_eq_ok_iff hgroup.opens).2 ⟨k, rfl, hgroup⟩

end

/-- The call in `f(a(b)[)c` ends at the second closing parenthesis. -/
theorem find_counterpart_call :
    ['f', '(', 'a', '(', 'b', ')', '[', ')', 'c'][1]? = some round.opening ∧
      IsLeast {k | round.LevelAt ['f', '(', 'a', '(', 'b', ')', '[', ')', 'c'] 1 k} 7 := by
  obtain ⟨k, hk, hleast⟩ := ((find_counterpart .round ['f', '(', 'a', '(', 'b', ')', '[', ')', 'c'] 1
    (by decide)).1 7).1 (by rfl)
  obtain rfl : 7 = k := by omega
  exact ⟨by decide, hleast⟩

/-- What stands between a counterpart and the next bracket does not change the word: that of `()a` is
primitive, and the counterpart stands in front of its end. -/
theorem primitive_not_counterpart :
    ['(', ')', 'a'][0]? = some round.opening ∧
      round.Primitive (round.brackets (slice ['(', ')', 'a'] 0 (2 + 1))) ∧
      find (String.singleton round.opening) ['(', ')', 'a'] 0 = .ok 1 :=
  ⟨by decide, primitive_of_balanced (b := .round) (t := []) (by decide), by rfl⟩

end Bracket

end SyntaxSpans
