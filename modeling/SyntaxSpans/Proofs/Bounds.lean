import SyntaxSpans.Proofs.Exactness

/-!
# Spans inside the source

A span is only ever compared by the text that it reads, and reading clips. So a span may read a node's
text and still be no range of the source. `fitting_iff` says when: a span that was given, and not found,
goes beyond the source or runs backwards and is kept, pairs of parentheses taken off it or not; or an
empty text is found behind the end of the source.
-/

namespace SyntaxSpans

namespace Span

def Inside (s : Span) (source : Text) : Prop :=
  0 ≤ s.start ∧ s.start ≤ s.stop ∧ s.stop ≤ source.length

/-- The span is a range of the source, and as long as the text. -/
def Fits (s : Span) (source raw : Text) : Prop :=
  s.Inside source ∧ s.stop - s.start = raw.length

instance (s : Span) (source : Text) : Decidable (s.Inside source) :=
  inferInstanceAs (Decidable (_ ∧ _ ∧ _))

instance (s : Span) (source raw : Text) : Decidable (s.Fits source raw) :=
  inferInstanceAs (Decidable (_ ∧ _))

/-- The span that `m` pairs of parentheses were taken off. -/
def outset (s : Span) (m : Nat) : Span := ⟨s.start - m, s.stop + m⟩

section
variable {s : Span} {source raw : Text} {m : Nat}

theorem length_read (s : Span) (source : Text) :
    (s.read source).length = cut source.length s.stop - cut source.length s.start :=
  length_slice _ _ _

theorem cut_eq_min {n : Nat} {i : Int} (h : 0 ≤ i) : cut n i = min i.toNat n := if_pos h

theorem cut_add_one_le (n : Nat) (i : Int) : cut n (i + 1) ≤ cut n i + 1 := by
  unfold cut
  split <;> split <;> omega

theorem cut_le_cut_sub_one (n : Nat) (i : Int) : cut n i ≤ cut n (i - 1) + 1 := by
  unfold cut
  split <;> split <;> omega

theorem length_read_le_inset (s : Span) (source : Text) :
    (s.read source).length ≤ ((⟨s.start + 1, s.stop - 1⟩ : Span).read source).length + 2 := by
  have := cut_add_one_le source.length s.start
  have := cut_le_cut_sub_one source.length s.stop
  rw [length_read, length_read]
  simp only
  omega

theorem eq_outset_succ {given : Span} (h : (⟨given.start + 1, given.stop - 1⟩ : Span) = s.outset m) :
    given = s.outset (m + 1) := by
  obtain ⟨start, stop⟩ := given
  simp only [outset, mk.injEq] at h ⊢
  omega

/-- A span of the right length that does not begin in front of the source is a range of it, unless it
reads nothing behind the end. -/
theorem fits_of_length (h : (s.read source).length = raw.length) (h0 : 0 ≤ s.start)
    (hlen : s.stop - s.start = raw.length) (hend : ¬ (raw = [] ∧ (source.length : Int) < s.start)) :
    s.Fits source raw := by
  rw [length_read] at h
  have hend : raw.length ≠ 0 ∨ s.start ≤ source.length := by
    rcases Nat.eq_zero_or_pos raw.length with hz | hz
    · exact Or.inr (Int.not_lt.1 fun hlt => hend ⟨List.length_eq_zero_iff.1 hz, hlt⟩)
    · exact Or.inl (Nat.ne_of_gt hz)
  rw [cut_eq_min h0, cut_eq_min (by omega)] at h
  exact ⟨⟨h0, by omega, by omega⟩, hlen⟩

theorem inside_outset (hfits : s.Fits source raw)
    (hread : ((s.outset m).read source).length = raw.length + 2 * m) :
    (s.outset m).Inside source := by
  obtain ⟨⟨h0, hle, hend⟩, hlen⟩ := hfits
  rw [length_read] at hread
  simp only [Inside, outset] at hread ⊢
  rw [cut_eq_min (by omega : 0 ≤ s.stop + m)] at hread
  unfold cut at hread
  split at hread <;> omega

theorem fits_of_inside_outset (hin : (s.outset m).Inside source)
    (hread : ((s.outset m).read source).length = raw.length + 2 * m) : s.Fits source raw := by
  obtain ⟨h0, hle, hend⟩ := hin
  rw [length_read] at hread
  simp only [outset] at hread h0 hle hend
  rw [cut_eq_min h0, cut_eq_min (by omega)] at hread
  exact ⟨⟨by omega, by omega, by omega⟩, by omega⟩

end

end Span

/-! ## Where a settled span comes from -/

namespace Locator

/-- The span is what is left of a given one, which reads the text with the parentheses that were taken
off it. -/
def Left (l : Locator) (given : Option Span) (s : Span) (raw : Text) : Prop :=
  ∃ m : Nat, given = some (s.outset m) ∧ ((s.outset m).read l.source).length = raw.length + 2 * m

section
variable {l : Locator} {role : Role} {raw raw' : Text} {a a' : Anchor}

/-- **Where a settled span comes from**: it was found, or it is left of the one that was given. -/
theorem Settles.span (h : l.Settles role raw a raw' a') (hr : l.reads a'.span raw' = true) :
    ∃ s, a'.span = some s ∧
      ((0 ≤ s.start ∧ s.stop - s.start = raw'.length) ∨ l.Left a.span s raw') := by
  -- beside, no more parentheses are taken off the span than off the text
  suffices ∃ s, a'.span = some s ∧ ((0 ≤ s.start ∧ s.stop - s.start = raw'.length) ∨
      ∃ m : Nat, raw'.length + 2 * m ≤ raw.length ∧ a.span = some (s.outset m) ∧
        ((s.outset m).read l.source).length = raw'.length + 2 * m) by
    obtain ⟨s, hs, hfound | ⟨m, -, hgiven, hlen⟩⟩ := this
    · exact ⟨s, hs, Or.inl hfound⟩
    · exact ⟨s, hs, Or.inr ⟨m, hgiven, hlen⟩⟩
  induction h with
  | skipped hspan => rw [hspan] at hr; cases hr
  | step _ _ hreads => rw [hreads] at hr; cases hr
  | @exact raw a a' hsearch hreads hstrip =>
    obtain ⟨s, hs, hread⟩ := span_of_reads hr
    refine ⟨s, hs, ?_⟩
    rcases search_ok hsearch with rfl | ⟨k, hk, rfl, -⟩
    · exact Or.inr ⟨0, Nat.le_refl _, by simp [hs, Span.outset], by simp [Span.outset, hread]⟩
    · obtain rfl := Option.some.inj hs
      exact Or.inl ⟨hk, by simp only; omega⟩
  | @inset raw inner raw' a a' a'' hsearch hreads hstrip _ ih =>
    obtain ⟨s, hs, hfound | ⟨m, hle, hgiven, hlen⟩⟩ := ih hr
    · exact ⟨s, hs, Or.inl hfound⟩
    · obtain ⟨given, hspan, hread⟩ := span_of_reads hreads
      have hinner := length_of_strip? hstrip
      simp only [Anchor.inset, hspan, Option.some.injEq] at hgiven
      have hclip := given.length_read_le_inset l.source
      rw [hgiven, hread, hlen] at hclip
      obtain rfl := Span.eq_outset_succ hgiven
      refine ⟨s, hs, ?_⟩
      rcases search_ok hsearch with rfl | ⟨k, hk, rfl, -⟩
      · refine Or.inr ⟨m + 1, by omega, hspan, ?_⟩
        rw [hread]
        omega
      · have hstart : k = s.start - ((m + 1 : Nat) : Int) :=
          congrArg Span.start (Option.some.inj hspan)
        have hstop : k + raw.length = s.stop + ((m + 1 : Nat) : Int) :=
          congrArg Span.stop (Option.some.inj hspan)
        exact Or.inl ⟨by omega, by omega⟩
  | @strip raw inner raw' a a' hsearch hreads hstrip _ ih =>
    have hinner := length_of_strip? hstrip
    obtain ⟨s, hs, hfound | ⟨m, hle, hgiven⟩⟩ := ih hr
    · exact ⟨s, hs, Or.inl hfound⟩
    · exact ⟨s, hs, Or.inr ⟨m, by omega, hgiven⟩⟩

end

/-- A span overruns the source: it is left of a given one that is no range of the source, or it reads
nothing behind the end. -/
def SpanOverruns (l : Locator) (given : Option Span) (s : Span) (raw : Text) : Prop :=
  (∃ m : Nat, given = some (s.outset m) ∧
    ((s.outset m).read l.source).length = raw.length + 2 * m ∧ ¬ (s.outset m).Inside l.source) ∨
  raw = [] ∧ (l.source.length : Int) < s.start

/-- **When a settled span fits**: it does not overrun the source. -/
theorem Settles.fits_iff {l : Locator} {role : Role} {raw raw' : Text} {a a' : Anchor} {s : Span}
    (h : l.Settles role raw a raw' a') (hs : a'.span = some s) (hread : s.read l.source = raw') :
    s.Fits l.source raw' ↔ ¬ l.SpanOverruns a.span s raw' := by
  constructor
  · rintro hfits (⟨m, -, hlen, hout⟩ | ⟨-, hend⟩)
    · exact hout (Span.inside_outset hfits hlen)
    · obtain ⟨⟨h0, hle, hstop⟩, -⟩ := hfits
      omega
  · intro hover
    obtain ⟨hkept, hend⟩ := not_or.1 hover
    obtain ⟨s', hs', hfrom⟩ := h.span (by simp [reads, hs, hread])
    obtain rfl : s' = s := Option.some.inj (hs'.symm.trans hs)
    rcases hfrom with ⟨h0, hlen⟩ | ⟨m, hgiven, hlen⟩
    · exact Span.fits_of_length (by rw [hread]) h0 hlen hend
    · refine Span.fits_of_inside_outset (m := m) ?_ hlen
      exact Classical.byContradiction fun hout => hkept ⟨m, hgiven, hlen, hout⟩

/-- A node that has ended up at `q` overruns the source, with the span that it was given by its report
or by its operands, or with an empty text. -/
def Overruns (l : Locator) (c : Cursor) (q : Placement) : Prop :=
  ∃ given raw span, l.given? c = some given ∧ q.raw = some raw ∧ q.span = some span ∧
    l.SpanOverruns given.2.span span raw

/-- A text that is not empty and stands inside the source, where nothing or just this span was given. -/
theorem not_overruns {l : Locator} {c : Cursor} {q : Placement} {given : Text × Anchor} {raw : Text}
    {s : Span} (hgiven : l.given? c = some given) (hraw : q.raw = some raw) (hspan : q.span = some s)
    (hkept : given.2.span = none ∨ given.2.span = some s) (hin : s.Inside l.source) (hne : raw ≠ []) :
    ¬ l.Overruns c q := by
  rintro ⟨given', raw', s', hgiven', hraw', hspan', ⟨m, hm, -, hout⟩ | ⟨hnil, -⟩⟩
  · obtain rfl : given = given' := Option.some.inj (hgiven.symm.trans hgiven')
    obtain rfl : s = s' := Option.some.inj (hspan.symm.trans hspan')
    rcases hkept with hnone | hsame
    · simp [hnone] at hm
    · obtain rfl : m = 0 := by
        have hstart := congrArg Span.start (Option.some.inj (hsame.symm.trans hm))
        simp [Span.outset] at hstart
        omega
      simp [Span.outset] at hout
      exact hout hin
  · exact hne (Option.some.inj (hraw.symm.trans hraw') ▸ hnil)

end Locator

/-! ## Annotated trees -/

def Placement.Fits (q : Placement) (source : Text) : Prop :=
  ∃ raw span, q.raw = some raw ∧ q.span = some span ∧ span.Fits source raw

/-- The visited nodes that are not exempt have spans inside the source that are as long as their
texts. -/
def Annotated.Fitting (a : Annotated) (source : Text) : Prop :=
  ∀ c ∈ a.nodes, ¬ c.Exempt → c.node.placement.Fits source

section
variable {source : Text} {window : Window} {tree : Node} {a : Annotated} {c : Cursor}

theorem placement_fits_iff (h : annotate source window tree = .ok a)
    (hc : c ∈ (Cursor.root tree).preorder) (hx : ¬ (a.annotation.progress.placed c).Exempt) :
    (a.annotation.progress.mark c).placement.Fits source ↔
      ¬ (Locator.ofSource source window).Overruns c (a.annotation.progress.mark c).placement := by
  obtain ⟨given, raw, hgiven, hraw, hs, hreads⟩ := settles_of_not_exempt h hc hx
  obtain ⟨span, hspan, hread⟩ := Locator.span_of_reads hreads
  have hiff := hs.fits_iff hspan hread
  constructor
  · rintro ⟨raw', span', hraw', hspan', hfits⟩ ⟨given', raw'', span'', hgiven', hraw'', hspan'', hover⟩
    obtain rfl : given = given' := Option.some.inj (hgiven.symm.trans hgiven')
    obtain rfl : raw' = raw := Option.some.inj (hraw'.symm.trans hraw)
    obtain rfl : raw'' = raw' := Option.some.inj (hraw''.symm.trans hraw)
    obtain rfl : span' = span := Option.some.inj (hspan'.symm.trans hspan)
    obtain rfl : span'' = span' := Option.some.inj (hspan''.symm.trans hspan)
    exact hiff.1 hfits hover
  · intro hover
    exact ⟨raw, span, hraw, hspan, hiff.2 fun h => hover ⟨given, raw, span, hgiven, hraw, hspan, h⟩⟩

/-- **When all spans fit**: no visited node overruns the source. -/
theorem fitting_iff (h : annotate source window tree = .ok a) : a.Fitting source ↔
    ∀ c ∈ (Cursor.root tree).preorder, ¬ (a.annotation.progress.placed c).Exempt →
      ¬ (Locator.ofSource source window).Overruns c (a.annotation.progress.mark c).placement := by
  unfold Annotated.Fitting
  rw [nodes_eq h]
  simp only [List.forall_mem_map, Progress.placement_placed]
  constructor
  · intro hall c hc hx
    exact (placement_fits_iff h hc hx).1 (hall c hc hx)
  · intro hall c hc hx
    exact (placement_fits_iff h hc hx).2 (hall c hc hx)

/-- The spans of a sum fit: its operands are found inside the source, and it reaches from one to the
other. -/
theorem fitting_sum : ∃ a, annotate ['a', '+', 'b'] .standard .sum = .ok a ∧
    a.Fitting ['a', '+', 'b'] := by
  obtain ⟨a, ha⟩ := annotate_sum
  refine ⟨a, ha, (fitting_iff ha).2 fun c hc _ hover => ?_⟩
  have hfinal : (Locator.ofSource ['a', '+', 'b'] .standard).final? c =
      some (a.annotation.progress.mark c).placement :=
    (annotate_completes ha).drawn c (Cursor.contains_of_mem_preorder hc) ⟨c, hc, .refl⟩
  rw [preorder_sum] at hc
  simp only [List.mem_cons, List.not_mem_nil, or_false] at hc
  rcases hc with rfl | rfl | rfl
  · have hplace : (Locator.ofSource ['a', '+', 'b'] .standard).final? (.root .sum) =
        some { raw := some ['a', '+', 'b'], span := some ⟨0, 3⟩, line := some 1, column := some 1 } := by
      decide +kernel
    have hgiven : (Locator.ofSource ['a', '+', 'b'] .standard).given? (.root .sum) =
        some (['a', '+', 'b'], { span := some ⟨0, 3⟩, line := some 1, column := some 1 }) := by
      decide +kernel
    rw [← Option.some.inj (hplace.symm.trans hfinal)] at hover
    exact Locator.not_overruns hgiven rfl rfl (Or.inr rfl) (by decide) (by simp) hover
  · have hplace : (Locator.ofSource ['a', '+', 'b'] .standard).final?
        ⟨.identifier 'a' 1, [⟨"left", []⟩], some "PlusOp"⟩ =
        some { raw := some ['a'], span := some ⟨0, 1⟩, line := some 1, column := some 1 } := by
      decide +kernel
    rw [← Option.some.inj (hplace.symm.trans hfinal)] at hover
    exact Locator.not_overruns rfl rfl rfl (Or.inl rfl) (by decide) (by simp) hover
  · have hplace : (Locator.ofSource ['a', '+', 'b'] .standard).final?
        ⟨.identifier 'b' 3, [⟨"right", []⟩], some "PlusOp"⟩ =
        some { raw := some ['b'], span := some ⟨2, 3⟩, line := some 1, column := some 3 } := by
      decide +kernel
    rw [← Option.some.inj (hplace.symm.trans hfinal)] at hover
    exact Locator.not_overruns rfl rfl rfl (Or.inl rfl) (by decide) (by simp) hover

/-- A name with a span that goes on behind the end of the source. -/
def Node.overlong : Node := .mk "Identifier" { raw := some ['a'], span := some ⟨0, 100⟩ } []

/-- A name without characters, two columns behind the end of the source. -/
def Node.behindEnd : Node :=
  .mk "Identifier" { raw := some [], line := some 1, column := some 4 } []

/-- Both are annotated, and keep or get a span that is no range of the source. -/
theorem not_fitting :
    (∃ a, annotate ['a'] .standard .overlong = .ok a ∧ ¬ a.Fitting ['a']) ∧
    ∃ a, annotate ['a'] .standard .behindEnd = .ok a ∧ ¬ a.Fitting ['a'] := by
  have hnot : ∀ {raw : Text} {span : Span} {a : Annotated} {c : Cursor}, a.nodes = [c] →
      c.node.placement.raw = some raw → c.node.placement.span = some span → c.path = [] →
      ¬ span.Fits ['a'] raw → ¬ a.Fitting ['a'] := by
    intro raw span a c hnodes hraw hspan hpath hfits hall
    obtain ⟨raw', span', hraw', hspan', hfits'⟩ := hall c (by simp [hnodes])
      (by simp [Cursor.Exempt, hspan, hraw, Cursor.isIn, hpath])
    rw [hraw, Option.some.injEq] at hraw'
    rw [hspan, Option.some.injEq] at hspan'
    exact hfits (hraw' ▸ hspan' ▸ hfits')
  constructor
  · obtain ⟨a, c, ha, hnodes, hq, hpath⟩ := annotate_leaf ['a'] .standard .overlong
      (q := { raw := some ['a'], span := some ⟨0, 100⟩ }) rfl rfl (by decide +kernel)
    exact ⟨a, ha, hnot hnodes (by rw [hq]) (by rw [hq]) hpath (by decide)⟩
  · obtain ⟨a, c, ha, hnodes, hq, hpath⟩ := annotate_leaf ['a'] .standard .behindEnd
      (q := { raw := some [], span := some ⟨3, 3⟩, line := some 1, column := some 4 }) rfl rfl
      (by decide +kernel)
    exact ⟨a, ha, hnot hnodes (by rw [hq]) (by rw [hq]) hpath (by decide)⟩

end

end SyntaxSpans
