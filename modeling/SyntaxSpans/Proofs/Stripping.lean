import SyntaxSpans.Proofs.Nesting
import SyntaxSpans.Proofs.Settling

/-!
# Texts that stand where they are reported

A text that stands at the offset of its reported line and column is found there, whatever the window
(`search_of_reports`). Settling it takes off the pairs of parentheses that wrap it, one character at
each end of text and span for every pair, and comes to its end unless the text leaves the parenthesis
open that it begins with (`settle_of_standsAt`).
-/

namespace SyntaxSpans

/-- The text stands at an offset of the source. -/
def Text.StandsAt (raw source : Text) (start : Nat) : Prop := raw <+: source.drop start

instance (raw source : Text) (start : Nat) : Decidable (raw.StandsAt source start) :=
  inferInstanceAs (Decidable (raw <+: source.drop start))

/-- The number of pairs of parentheses that are taken off a text. -/
def strips (raw : Text) : Nat :=
  match _h : strip? raw with
  | .ok (some inner) => strips inner + 1
  | _ => 0
termination_by raw.length
decreasing_by
  have := length_of_strip? _h
  omega

/-- The text without `j` characters at each end. -/
def Text.peeled (raw : Text) : Nat → Text
  | 0 => raw
  | j + 1 => slice (raw.peeled j) 1 (-1)

def strippings (kind : String) (raw : Text) : List Record :=
  (List.range (strips raw)).map fun j => .stripped kind (raw.peeled (j + 1))

/-- The anchor of a node that `k` pairs of parentheses are taken off. -/
def Anchor.insetBy (a : Anchor) (k : Nat) : Anchor :=
  { a with
    span := a.span.map fun s => ⟨s.start + k, s.stop - k⟩
    column := a.column.map (· - (k : Int)) }

section
variable {raw inner source : Text} {start : Nat}

theorem strips_of_some (h : strip? raw = .ok (some inner)) : strips raw = strips inner + 1 := by
  rw [strips]
  split
  · next inner' h' =>
    rw [h] at h'
    cases h'
    rfl
  · next hnot => exact absurd h (hnot inner)

theorem strips_of_not_some (h : ∀ inner, strip? raw ≠ .ok (some inner)) : strips raw = 0 := by
  rw [strips]
  split
  · next inner' h' => exact absurd h' (h inner')
  · rfl

theorem two_mul_strips_le (raw : Text) : 2 * strips raw ≤ raw.length := by
  fun_induction strips raw with
  | case1 raw inner h ih =>
    have := length_of_strip? h
    omega
  | case2 raw _ => omega

theorem peeled_succ (raw : Text) (j : Nat) :
    raw.peeled (j + 1) = Text.peeled (slice raw 1 (-1)) j := by
  induction j with
  | zero => rfl
  | succ j ih => rw [Text.peeled, ih, Text.peeled]

/-- What a pair of parentheses wraps is the text without its first and its last character. -/
theorem slice_of_strip? (h : strip? raw = .ok (some inner)) : slice raw 1 (-1) = inner := by
  obtain ⟨rfl, -⟩ := strip?_eq_some_iff.1 h
  have hlen : ('(' :: (inner ++ [')'])).length = inner.length + 2 := by simp
  have hstop : cut (inner.length + 2) (-1) = inner.length + 1 := by
    rw [cut, if_neg (by decide)]
    omega
  have hstart : cut (inner.length + 2) 1 = 1 := cut_natCast (k := 1) (by omega)
  rw [slice, hlen, hstart, hstop]
  simp

/-- What a pair of parentheses wraps is balanced, so it is not refused. -/
theorem strip?_ok_of_some (h : strip? raw = .ok (some inner)) : ∃ inner?, strip? inner = .ok inner? :=
  strip?_ok_of_balanced (strip?_eq_some_iff.1 h).2

theorem peeled_of_some (h : strip? raw = .ok (some inner)) (j : Nat) :
    raw.peeled (j + 1) = inner.peeled j := by
  rw [peeled_succ, slice_of_strip? h]

/-- Pairs are taken off until there are none left. -/
theorem strip?_peeled_iff (raw : Text) {j : Nat} (hj : j ≤ strips raw) :
    (∃ inner, strip? (raw.peeled j) = .ok (some inner)) ↔ j < strips raw := by
  fun_induction strips raw generalizing j with
  | case1 raw inner h ih =>
    cases j with
    | zero => exact ⟨fun _ => Nat.succ_pos _, fun _ => ⟨inner, h⟩⟩
    | succ j => rw [peeled_of_some h, ih (by omega), Nat.add_lt_add_iff_right]
  | case2 raw hnot =>
    obtain rfl : j = 0 := Nat.le_zero.1 hj
    exact ⟨fun ⟨inner, h⟩ => absurd h (hnot inner), fun h => absurd h (Nat.lt_irrefl 0)⟩

theorem strippings_of_some (kind : String) (h : strip? raw = .ok (some inner)) :
    strippings kind raw = .stripped kind inner :: strippings kind inner := by
  have hrest : ∀ j, raw.peeled (j + 1) = inner.peeled j := peeled_of_some h
  rw [strippings, strips_of_some h, List.range_succ_eq_map, List.map_cons, List.map_map, hrest 0]
  refine congrArg (Record.stripped kind inner :: ·) (List.map_congr_left fun j _ => ?_)
  rw [Function.comp, Nat.succ_eq_add_one, hrest]

theorem strippings_of_not_some (kind : String) (h : ∀ inner, strip? raw ≠ .ok (some inner)) :
    strippings kind raw = [] := by
  rw [strippings, strips_of_not_some h]
  rfl

theorem Anchor.insetBy_inset {a : Anchor} {s : Span} (h : a.span = some s) (k : Nat) :
    a.inset.insetBy k = a.insetBy (k + 1) := by
  obtain ⟨span, line, column⟩ := a
  obtain rfl : span = some s := h
  simp only [Anchor.inset, Anchor.insetBy, Option.map_some, Option.map_map, Anchor.mk.injEq,
    Option.some.injEq, Span.mk.injEq, true_and]
  refine ⟨⟨by omega, by omega⟩, Option.map_congr fun n _ => ?_⟩
  simp only [Function.comp]
  omega

theorem Anchor.insetBy_zero (a : Anchor) : a.insetBy 0 = a := by
  obtain ⟨span, line, column⟩ := a
  simp [Anchor.insetBy]

theorem slice_add {α : Type} (xs : List α) (start length : Nat) :
    slice xs start (start + length) = (xs.drop start).take length := by
  rw [slice, cut, cut, if_pos (by omega), if_pos (by omega), ← Int.natCast_add, Int.toNat_natCast,
    Int.toNat_natCast, List.drop_take]
  rcases Nat.le_total start xs.length with hle | hle
  · rw [Nat.min_eq_left hle, List.take_eq_take_iff, List.length_drop]
    omega
  · rw [Nat.min_eq_right hle, List.drop_length, List.drop_eq_nil_of_le hle, List.take_nil,
      List.take_nil]

theorem slice_eq_iff_standsAt :
    slice source start (start + raw.length) = raw ↔ raw.StandsAt source start := by
  rw [slice_add, Text.StandsAt, List.prefix_iff_eq_take, eq_comm]

/-- What a pair of parentheses wraps stands one character behind them. -/
theorem Text.StandsAt.inside (h : raw.StandsAt source start) (hstrip : strip? raw = .ok (some inner)) :
    inner.StandsAt source (start + 1) := by
  obtain ⟨rfl, -⟩ := strip?_eq_some_iff.1 hstrip
  obtain ⟨rest, hrest⟩ := h
  refine ⟨')' :: rest, ?_⟩
  rw [← List.drop_drop, ← hrest]
  simp

end

namespace Locator

section
variable {l : Locator} {role : Role}

theorem reads_iff_standsAt {raw : Text} {start : Nat} :
    l.reads (some ⟨start, start + raw.length⟩) raw = true ↔ raw.StandsAt l.source start := by
  rw [reads, beq_iff_eq, Span.read, slice_eq_iff_standsAt]

/-- The search for a text that stands at the reported offset ends at its first try. -/
theorem searchFrom_of_standsAt {raw : Text} {start : Nat} (h : raw.StandsAt l.source start) :
    l.searchFrom raw start l.window.size = some (start : Int) := by
  obtain ⟨tries, htries⟩ := Nat.exists_eq_add_one_of_ne_zero (Nat.ne_of_gt l.window.size_pos)
  rw [htries, searchFrom, if_neg (by omega), if_pos]
  exact beq_iff_eq.2 (slice_eq_iff_standsAt.2 h)

/-- A text that stands where its line and column say is found there, unless its span reads it. -/
theorem search_of_standsAt {raw : Text} {a : Anchor} {line column : Int} {start : Nat}
    (hreads : l.reads a.span raw = false) (hline : a.line = some line) (hcolumn : a.column = some column)
    (hoffset : l.lines.offset? (line - 1) (column - 1) = some (start : Int))
    (h : raw.StandsAt l.source start) :
    l.search raw a = .ok { a with span := some ⟨start, start + raw.length⟩ } := by
  rw [search, hreads]
  simp only [Bool.false_eq_true, if_false, hline, hcolumn, hoffset, searchFrom_of_standsAt h]

theorem settle_of_search {raw : Text} {a a' : Anchor}
    (hskip : a.span.isNone = true → role.kind ≠ "ConcatOp")
    (hsearch : l.search raw a = .ok a') (hreads : l.reads a'.span raw = true) :
    l.settle role raw a = l.settle role raw a' := by
  obtain ⟨s, hs, -⟩ := span_of_reads hreads
  have hkind : (a.span.isNone && role.kind == "ConcatOp") = false := by
    cases hspan : a.span.isNone with
    | false => rfl
    | true => simpa using hskip hspan
  rw [settle, settle, hkind, hs]
  simp only [Option.isNone_some, Bool.false_and, Bool.false_eq_true, if_false, hsearch,
    search_of_reads hreads]

/-- **Settling a text that stands where its span says** ends in a fault only if the text is refused.
Otherwise text and span lose one character at each end for every pair of parentheses. -/
theorem settle_of_standsAt {raw : Text} {a : Anchor} {start : Nat}
    (hspan : a.span = some ⟨start, start + raw.length⟩) (h : raw.StandsAt l.source start) :
    (∀ e, strip? raw = .error e → l.settle role raw a = ⟨raw, a, [], some (.bracket e)⟩) ∧
    (∀ inner?, strip? raw = .ok inner? → l.settle role raw a =
      ⟨raw.peeled (strips raw), a.insetBy (strips raw), strippings role.kind raw, none⟩) := by
  have hreads : l.reads a.span raw = true := by rw [hspan, reads_iff_standsAt]; exact h
  rw [settle, if_neg (by simp [hspan]), search_of_reads hreads]
  simp only [hreads, if_true]
  split
  · next e he => simp [he]
  · next hnone =>
    refine ⟨by simp [hnone], fun _ _ => ?_⟩
    have hnot : ∀ inner, strip? raw ≠ .ok (some inner) := by simp [hnone]
    rw [strips_of_not_some hnot, strippings_of_not_some _ hnot, Anchor.insetBy_zero]
    rfl
  · next inner hinner =>
    refine ⟨by simp [hinner], fun _ _ => ?_⟩
    obtain ⟨inner?, hok⟩ := strip?_ok_of_some hinner
    have hlen := length_of_strip? hinner
    have hinset : a.inset.span = some ⟨(start + 1 : Nat), (start + 1 : Nat) + inner.length⟩ := by
      rw [Anchor.inset, hspan]
      simp only [Option.some.injEq, Span.mk.injEq]
      omega
    rw [(settle_of_standsAt hinset (h.inside hinner)).2 _ hok, strips_of_some hinner,
      peeled_of_some hinner, strippings_of_some _ hinner, Anchor.insetBy_inset hspan]
    rfl
termination_by raw.length

end

end Locator

/-! ## Reported positions -/

/-- The text is reported without a span, at the line and the column of an offset where it stands. -/
structure Placement.Reports (p : Placement) (source raw : Text) (start : Nat) : Prop where
  span : p.span = none
  text : p.raw = some raw
  position : ∃ line column, p.line = some line ∧ p.column = some column ∧
    (LineMap.ofText source).offset? (line - 1) (column - 1) = some (start : Int)
  stands : raw.StandsAt source start

section
variable {source raw : Text} {p : Placement} {start : Nat}

theorem search_of_reports (window : Window) (h : p.Reports source raw start) :
    (Locator.ofSource source window).search raw p.toAnchor =
      .ok { p.toAnchor with span := some ⟨start, start + raw.length⟩ } := by
  obtain ⟨line, column, hline, hcolumn, hoffset⟩ := h.position
  have hreads : (Locator.ofSource source window).reads p.toAnchor.span raw = false := by
    rw [h.span]
    rfl
  exact Locator.search_of_standsAt hreads hline hcolumn hoffset h.stands

/-- **Settling a text that stands where it is reported.** -/
theorem settle_of_reports (window : Window) {role : Role} (hkind : role.kind ≠ "ConcatOp")
    (h : p.Reports source raw start) :
    let s := (Locator.ofSource source window).settle role raw p.toAnchor
    (∀ e, strip? raw = .error e → s.fault = some (.bracket e)) ∧
    (∀ inner?, strip? raw = .ok inner? → s.fault = none ∧
      s.anchor.span = some ⟨start + strips raw, start + raw.length - strips raw⟩) := by
  rw [Locator.settle_of_search (fun _ => hkind) (search_of_reports window h)
    (Locator.reads_iff_standsAt.2 h.stands)]
  have hplaced : ({ p.toAnchor with span := some ⟨start, start + raw.length⟩ } : Anchor).span =
      some ⟨start, start + raw.length⟩ := rfl
  refine ⟨fun e he => ?_, fun inner? hok => ?_⟩
  · rw [(Locator.settle_of_standsAt (l := .ofSource source window) hplaced h.stands).1 e he]
  · rw [(Locator.settle_of_standsAt (l := .ofSource source window) hplaced h.stands).2 inner? hok]
    exact ⟨rfl, rfl⟩

end

end SyntaxSpans
