import SyntaxSpans.Proofs.AllOrNothing
import SyntaxSpans.Proofs.ClosedForm
import SyntaxSpans.Proofs.Lines

/-!
# What the search finds

While a text is settled it is searched once for every pair of parentheses that is taken off it, unless a
span reads it already. `Locator.Seeks` holds of the texts that settling comes to search for, with the
anchors that they have by then. A text that is found stands behind the start of a line, no further in front
of its column than the window reaches, and the line is the reported one if that is a line at all
(`found_on_line`). A number that is too small for a line counts lines from the end.
-/

namespace SyntaxSpans

/-! ## Lines by their numbers -/

/-- The line with a number, where the first is line 1, starts at an offset: at the beginning of the source
or right behind a line feed. -/
def LineStart (source : Text) (line : Int) (first : Nat) : Prop :=
  ∃ before after, source = before ++ after ∧ (before = [] ∨ before.getLast? = some '\n') ∧
    line = before.count '\n' + 1 ∧ first = before.length

/-- The line is one of the source, and the offset is one that a window tries for a position on it. -/
structure OnLine (source : Text) (window : Window) (line column start : Int) : Prop where
  line_le : 1 ≤ line ∧ line ≤ 1 + (source.count '\n' : Int)
  near : ∃ first, LineStart source line first ∧ first + column - 1 - (window.size - 1) ≤ start ∧
    start ≤ first + column - 1

namespace LineMap

/-- The lines behind the first start right behind a line feed. -/
theorem startsFrom_getElem? {offset n first : Nat} {t : Text}
    (h : (startsFrom offset t)[n]? = some first) :
    ∃ before after, t = before ++ after ∧ before.getLast? = some '\n' ∧ before.count '\n' = n + 1 ∧
      first = offset + before.length := by
  induction t generalizing offset n with
  | nil => simp [startsFrom] at h
  | cons c rest ih =>
    rw [startsFrom] at h
    split at h
    · next hc =>
      subst hc
      cases n with
      | zero =>
        obtain rfl : offset + 1 = first := by simpa using h
        exact ⟨['\n'], rest, rfl, rfl, rfl, rfl⟩
      | succ n =>
        obtain ⟨before, after, rfl, hlast, hcount, rfl⟩ := ih (by simpa using h)
        refine ⟨'\n' :: before, after, rfl, by rw [List.getLast?_cons, hlast]; rfl, ?_, ?_⟩
        · rw [List.count_cons_self, hcount]
        · rw [List.length_cons]; omega
    · next hc =>
      obtain ⟨before, after, rfl, hlast, hcount, rfl⟩ := ih h
      refine ⟨c :: before, after, rfl, by rw [List.getLast?_cons, hlast]; rfl, ?_, ?_⟩
      · rw [List.count_cons_of_ne hc, hcount]
      · rw [List.length_cons]; omega

theorem lineStart_of_getElem? {source : Text} {n first : Nat}
    (h : (ofText source).starts[n]? = some first) : LineStart source (n + 1) first := by
  cases n with
  | zero =>
    obtain rfl : 0 = first := by simpa [ofText] using h
    exact ⟨[], source, rfl, Or.inl rfl, rfl, rfl⟩
  | succ n =>
    obtain ⟨before, after, hsplit, hlast, hcount, rfl⟩ :=
      startsFrom_getElem? (by simpa [ofText] using h : (startsFrom 0 source)[n]? = some first)
    exact ⟨before, after, hsplit, Or.inr hlast, by rw [hcount, Int.natCast_succ], Nat.zero_add _⟩

theorem offset?_eq_some_iff {m : LineMap} {line column offset : Int} :
    m.offset? line column = some offset ↔ ∃ first : Nat, m.start? line = some first ∧
      offset = first + column := by
  unfold offset?
  cases m.start? line <;> simp [eq_comm]

/-- **Which line a number means**: a number below one counts from the last line, which is line 0. -/
theorem lineStart_of_start? {source : Text} {line : Int} {first : Nat}
    (h : (ofText source).start? (line - 1) = some first) :
    (1 ≤ line → line ≤ 1 + (source.count '\n' : Int) ∧ LineStart source line first) ∧
    (line < 1 → 1 ≤ line + (source.count '\n' + 1) ∧
      LineStart source (line + (source.count '\n' + 1)) first) := by
  have hlength := length_starts source
  unfold start? at h
  split at h
  · next hpos =>
    obtain ⟨hlt, -⟩ := List.getElem?_eq_some_iff.1 h
    refine ⟨fun _ => ⟨by omega, ?_⟩, fun hneg => by omega⟩
    have hstart := lineStart_of_getElem? h
    rwa [Int.toNat_of_nonneg hpos, Int.sub_add_cancel] at hstart
  · next hneg =>
    split at h
    · next hpos =>
      refine ⟨fun hline => by omega, fun _ => ⟨by omega, ?_⟩⟩
      have hstart := lineStart_of_getElem? h
      rw [Int.toNat_of_nonneg hpos, hlength] at hstart
      convert hstart using 1
      omega
    · cases h

end LineMap

namespace Locator

/-! ## Searches -/

/-- Settling `raw` at `a` comes to search for `t` at `b`, after taking `k` pairs of parentheses off a span
that read them. -/
inductive Seeks (l : Locator) (role : Role) : Text → Anchor → Nat → Text → Anchor → Prop where
  | here {raw : Text} {a : Anchor} (hgoes : a.span = none → role.kind ≠ "ConcatOp")
    (hmiss : l.reads a.span raw = false) : Seeks l role raw a 0 raw a
  /-- Behind a pair that is taken off both text and span. -/
  | inset {raw inner t : Text} {a a' b : Anchor} {k : Nat}
    (hgoes : a.span = none → role.kind ≠ "ConcatOp") (hsearch : l.search raw a = .ok a')
    (hreads : l.reads a'.span raw = true) (hstrip : strip? raw = .ok (some inner))
    (hrest : Seeks l role inner a'.inset k t b) : Seeks l role raw a (k + 1) t b
  /-- Behind a pair that is taken off the text alone. -/
  | strip {raw inner t : Text} {a b : Anchor} {k : Nat}
    (hgoes : a.span = none → role.kind ≠ "ConcatOp") (hsearch : l.search raw a = .ok a)
    (hreads : l.reads a.span raw = false) (hstep : role.isStep = false)
    (hstrip : strip? raw = .ok (some inner)) (hrest : Seeks l role inner a k t b) :
    Seeks l role raw a k t b

/-- A search that settling comes to finds its text at `start`. -/
structure Finds (l : Locator) (role : Role) (raw : Text) (a : Anchor) (k : Nat) (t : Text) (b : Anchor)
    (start : Int) : Prop where
  seeks : l.Seeks role raw a k t b
  found : l.search t b = .ok { b with span := some ⟨start, start + t.length⟩ }
  reads : l.reads (some ⟨start, start + t.length⟩) t = true

section
variable {l : Locator} {role : Role} {raw inner t : Text} {a a' b : Anchor} {k : Nat} {start : Int}

theorem Seeks.miss (h : l.Seeks role raw a k t b) : l.reads b.span t = false := by
  induction h with
  | here _ hmiss => exact hmiss
  | inset _ _ _ _ _ ih => exact ih
  | strip _ _ _ _ _ _ ih => exact ih

theorem Seeks.line (h : l.Seeks role raw a k t b) : b.line = a.line := by
  induction h with
  | here _ _ => rfl
  | inset _ hsearch _ _ _ ih => rw [ih, line_inset, line_of_search hsearch]
  | strip _ _ _ _ _ _ ih => exact ih

/-- A pair that is taken off a span takes one off the column. -/
theorem Seeks.column (h : l.Seeks role raw a k t b) : b.column = a.column.map (· - (k : Int)) := by
  induction h with
  | here _ _ => simp
  | @inset raw inner t a a' b k _ hsearch hreads _ _ ih =>
    obtain ⟨s, hs, -⟩ := span_of_reads hreads
    have hcolumn : a'.column = a.column := by
      rcases search_ok hsearch with rfl | ⟨_, -, rfl, -⟩ <;> rfl
    rw [ih, Anchor.inset, hs, hcolumn, Option.map_map]
    refine Option.map_congr fun n _ => ?_
    simp only [Function.comp]
    omega
  | strip _ _ _ _ _ _ ih => exact ih

/-- No search is made inside a text that stands where its span says. -/
theorem not_seeks_of_standsAt {start : Nat} (hspan : a.span = some ⟨start, start + raw.length⟩)
    (h : raw.StandsAt l.source start) : ¬ l.Seeks role raw a k t b := by
  intro hseeks
  induction hseeks generalizing start with
  | here _ hmiss =>
    rw [hspan, reads_iff_standsAt.2 h] at hmiss
    cases hmiss
  | @inset raw inner t a a' b k _ hsearch _ hstrip _ ih =>
    have hreads : l.reads a.span raw = true := by rw [hspan, reads_iff_standsAt]; exact h
    obtain rfl := Except.ok.inj ((search_of_reads hreads).symm.trans hsearch)
    refine ih ?_ (h.inside hstrip)
    have hlength := length_of_strip? hstrip
    simp only [Anchor.inset, hspan, Option.some.injEq, Span.mk.injEq]
    omega
  | strip _ _ hmiss _ _ _ =>
    rw [hspan, reads_iff_standsAt.2 h] at hmiss
    cases hmiss

theorem found_of_search (hmiss : l.reads a.span raw = false) (h : l.search raw a = .ok a')
    (hreads : l.reads a'.span raw = true) :
    ∃ line column, ∃ first : Nat, ∃ start, a.line = some line ∧ a.column = some column ∧
      l.lines.start? (line - 1) = some first ∧
      IsGreatest (l.hits raw (first + (column - 1)) l.window.size) start ∧
      a' = { a with span := some ⟨start, start + raw.length⟩ } := by
  have hsame : a' ≠ a := by
    rintro rfl
    rw [hmiss] at hreads
    cases hreads
  unfold search at h
  rw [hmiss, if_neg Bool.false_ne_true] at h
  split at h
  · next line column hline hcolumn =>
    split at h
    · cases h
    · next reported hreported =>
      obtain ⟨first, hfirst, rfl⟩ := LineMap.offset?_eq_some_iff.1 hreported
      split at h
      · next start hstart =>
        cases h
        exact ⟨line, column, first, start, hline, hcolumn, hfirst, searchFrom_eq_some_iff.1 hstart, rfl⟩
      · cases h
        exact absurd rfl hsame
  · cases h
    exact absurd rfl hsame

/-- A search leaves the anchor alone or finds the text. -/
theorem search_cases (hgoes : a.span = none → role.kind ≠ "ConcatOp") (h : l.search raw a = .ok a') :
    a' = a ∨ ∃ start, l.Finds role raw a 0 raw a start ∧
      a' = { a with span := some ⟨start, start + raw.length⟩ } := by
  rcases search_ok h with rfl | ⟨start, -, rfl, hreads⟩
  · exact Or.inl rfl
  · by_cases hmiss : l.reads a.span raw = true
    · rw [search_of_reads hmiss, Except.ok.injEq] at h
      exact Or.inl h.symm
    · exact Or.inr ⟨start, ⟨.here hgoes (Bool.eq_false_iff.2 hmiss), h, hreads⟩, rfl⟩

/-- The span is what is left of the given one, or of one that a search has found. -/
def FromSearch (l : Locator) (role : Role) (raw : Text) (a : Anchor) (span : Option Span) : Prop :=
  (∃ j : Nat, span = a.span.map fun s => ⟨s.start + j, s.stop - j⟩) ∨
  ∃ k t b start, ∃ j : Nat, l.Finds role raw a k t b start ∧
    span = some ⟨start + j, start + t.length - j⟩

theorem fromSearch_self : l.FromSearch role raw a a.span :=
  Or.inl ⟨0, by simp⟩

theorem fromSearch_of_search (hgoes : a.span = none → role.kind ≠ "ConcatOp")
    (h : l.search raw a = .ok a') : l.FromSearch role raw a a'.span := by
  rcases search_cases hgoes h with rfl | ⟨start, hfinds, rfl⟩
  · exact fromSearch_self
  · exact Or.inr ⟨0, raw, a, start, 0, hfinds, by simp⟩

theorem FromSearch.inset {span : Option Span} (hgoes : a.span = none → role.kind ≠ "ConcatOp")
    (hsearch : l.search raw a = .ok a') (hreads : l.reads a'.span raw = true)
    (hstrip : strip? raw = .ok (some inner)) (h : l.FromSearch role inner a'.inset span) :
    l.FromSearch role raw a span := by
  obtain ⟨s, hs, -⟩ := span_of_reads hreads
  rcases h with ⟨j, rfl⟩ | ⟨k, t, b, start, j, hfinds, rfl⟩
  · simp only [Anchor.inset, hs, Option.map_some]
    rcases search_cases hgoes hsearch with rfl | ⟨start, hfinds, rfl⟩
    · refine Or.inl ⟨j + 1, ?_⟩
      rw [hs, Option.map_some, Option.some.injEq, Span.mk.injEq]
      omega
    · obtain rfl := Option.some.inj hs
      refine Or.inr ⟨0, raw, a, start, j + 1, hfinds, ?_⟩
      rw [Option.some.injEq, Span.mk.injEq]
      simp only
      omega
  · exact Or.inr ⟨k + 1, t, b, start, j,
      ⟨.inset hgoes hsearch hreads hstrip hfinds.seeks, hfinds.found, hfinds.reads⟩, rfl⟩

theorem FromSearch.strip {span : Option Span} (hgoes : a.span = none → role.kind ≠ "ConcatOp")
    (hsearch : l.search raw a = .ok a) (hreads : l.reads a.span raw = false)
    (hstep : role.isStep = false) (hstrip : strip? raw = .ok (some inner))
    (h : l.FromSearch role inner a span) : l.FromSearch role raw a span := by
  rcases h with ⟨j, rfl⟩ | ⟨k, t, b, start, j, hfinds, rfl⟩
  · exact Or.inl ⟨j, rfl⟩
  · exact Or.inr ⟨k, t, b, start, j,
      ⟨.strip hgoes hsearch hreads hstep hstrip hfinds.seeks, hfinds.found, hfinds.reads⟩, rfl⟩

/-- **Where the spans of settling come from**, whether or not it ends in a fault. -/
theorem settle_fromSearch (l : Locator) (role : Role) (raw : Text) (a : Anchor) :
    l.FromSearch role raw a (l.settle role raw a).anchor.span := by
  have goes : ∀ {a : Anchor}, ¬ (a.span.isNone && role.kind == "ConcatOp") = true →
      a.span = none → role.kind ≠ "ConcatOp" := fun h hspan => by simpa [hspan] using h
  fun_induction l.settle role raw a with
  | case1 raw a _ => exact fromSearch_self
  | case2 raw a _ fault _ => exact fromSearch_self
  | case3 raw a hgoes a' hsearch _ e _ => exact fromSearch_of_search (goes hgoes) hsearch
  | case4 raw a hgoes a' hsearch _ _ => exact fromSearch_of_search (goes hgoes) hsearch
  | case5 raw a hgoes a' hsearch hreads inner hstrip ih =>
    exact ih.inset (goes hgoes) hsearch hreads hstrip
  | case6 raw a hgoes a' hsearch _ _ => exact fromSearch_of_search (goes hgoes) hsearch
  | case7 raw a hgoes a' hsearch _ _ e _ => exact fromSearch_of_search (goes hgoes) hsearch
  | case8 raw a hgoes a' hsearch _ _ _ => exact fromSearch_of_search (goes hgoes) hsearch
  | case9 raw a hgoes a' hsearch hreads hstep inner hstrip ih =>
    have hreads := Bool.eq_false_iff.2 hreads
    obtain rfl := search_of_not_reads hsearch hreads
    exact ih.strip (goes hgoes) hsearch hreads (Bool.eq_false_iff.2 hstep) hstrip

end

/-! ## Searches in a source -/

section
variable {source : Text} {window : Window} {role : Role} {raw t : Text} {a b : Anchor} {k : Nat} {start : Int}

/-- No search is made behind a pair that is taken off a span, if the span that was given is a range of the
source. -/
theorem Seeks.eq_zero {l : Locator} (h : l.Seeks role raw a k t b)
    (hinside : ∀ s, a.span = some s → s.Inside l.source) : k = 0 := by
  induction h with
  | here _ _ => rfl
  | @inset raw inner t a a' b k _ hsearch hreads hstrip hrest _ =>
    -- what stands where its span says stays so without its parentheses
    have hstands : ∃ start : Nat, a'.span = some ⟨start, start + raw.length⟩ ∧
        raw.StandsAt l.source start := by
      rcases search_ok hsearch with rfl | ⟨start, h0, rfl, -⟩
      · obtain ⟨s, hs, hread⟩ := span_of_reads hreads
        rw [hs]
        simpa using standsAt_of_inside (hinside s hs) hread
      · obtain ⟨start, rfl⟩ := Int.eq_ofNat_of_zero_le h0
        exact ⟨start, rfl, reads_iff_standsAt.1 hreads⟩
    obtain ⟨start, hspan, hstart⟩ := hstands
    have hlength := length_of_strip? hstrip
    refine absurd hrest (not_seeks_of_standsAt ?_ (hstart.inside hstrip))
    simp only [Anchor.inset, hspan, Option.some.injEq, Span.mk.injEq]
    omega
  | strip _ _ _ _ _ _ ih => exact ih hinside

/-- **A text that is found** stands near its column on the reported line, if that is a line. -/
theorem Finds.onLine (h : (ofSource source window).Finds role raw a k t b start) :
    ∃ line column, a.line = some line ∧ a.column = some column ∧ b.line = some line ∧
      b.column = some (column - k) ∧
      (1 ≤ line → OnLine source window line (column - k) start) ∧
      (line < 1 → OnLine source window (line + (source.count '\n' + 1)) (column - k) start) := by
  obtain ⟨line, column', first, start', hline, hcolumn, hfirst, hlast, hanchor⟩ :=
    found_of_search h.seeks.miss h.found h.reads
  obtain rfl : start = start' := by simpa using hanchor
  obtain ⟨hlow, hhigh, -⟩ := hlast.1
  rw [h.seeks.line] at hline
  obtain ⟨column, ha, rfl⟩ := Option.map_eq_some_iff.1 (h.seeks.column.symm.trans hcolumn)
  obtain ⟨hreal, hcounted⟩ := LineMap.lineStart_of_start? hfirst
  refine ⟨line, column, hline, ha, h.seeks.line.trans hline, hcolumn, fun hpos => ?_, fun hneg => ?_⟩
  · obtain ⟨hle, hstart⟩ := hreal hpos
    exact ⟨⟨hpos, hle⟩, first, hstart, by simp only [ofSource] at hlow; omega, by omega⟩
  · obtain ⟨hge, hstart⟩ := hcounted hneg
    exact ⟨⟨hge, by omega⟩, first, hstart, by simp only [ofSource] at hlow; omega, by omega⟩

/-- **Where a node with text is found.** Resolving it leaves its span alone, or leaves what is left of a span
that was found. Whatever is found lies on the reported line, at most a window in front of the column, just if
the reported line is at least 1; below that the line is counted from the end. The column is the reported one,
less one for every pair of parentheses that was taken off a span before, and none is taken off a span
before if the span that was given is a range of the source. -/
theorem found_on_line {c : Cursor} {p : Progress} (hnew : (p.mark c).resolved = false)
    (hraw : (p.mark c).placement.raw = some raw) :
    let l := ofSource source window
    let q := (p.mark c).placement
    let role : Role := ⟨c.kind, (p.mark c).linked && c.isIn "step"⟩
    (∀ p', (l.resolve c p = .ok () p' ∨ ∃ fault, l.resolve c p = .error fault p') →
      l.FromSearch role raw q.toAnchor (p'.mark c).placement.span) ∧
    ∀ k t b start, l.Finds role raw q.toAnchor k t b start →
      ∃ line column, q.line = some line ∧ q.column = some column ∧ b.line = some line ∧
        b.column = some (column - k) ∧ ((∀ s, q.span = some s → s.Inside source) → k = 0) ∧
        (OnLine source window line (column - k) start ↔ 1 ≤ line) ∧
        (line < 1 → OnLine source window (line + (source.count '\n' + 1)) (column - k) start) := by
  intro l q role
  refine ⟨fun p' hp' => ?_, fun k t b start h => ?_⟩
  · have hspan := settle_fromSearch l role raw q.toAnchor
    have hout := resolve_text_outcome (l := l) hnew hraw
    rw [Outcome] at hout
    rcases hp' with hp' | ⟨fault, hp'⟩
    · rw [hp'] at hout
      rw [hout.2.1]
      exact hspan
    · rw [hp'] at hout
      rw [hout.2.1]
      exact hspan
  · obtain ⟨line, column, hline, hcolumn, hbline, hbcolumn, hreal, hcounted⟩ := h.onLine
    exact ⟨line, column, hline, hcolumn, hbline, hbcolumn, h.seeks.eq_zero,
      ⟨fun hon => hon.line_le.1, hreal⟩, hcounted⟩

/-- A name on the second line, reported one character late. -/
theorem found_on_line_late :
    let c := Cursor.root (.mk "Identifier" { raw := some ['a'], line := some 2, column := some 2 } [])
    (ofSource ['x', '\n', 'a'] .standard).FromSearch ⟨"Identifier", false⟩ ['a'] c.node.placement.toAnchor
        (some ⟨2, 3⟩) ∧
      OnLine ['x', '\n', 'a'] .standard 2 2 2 := by
  intro c
  have hmain := @found_on_line ['x', '\n', 'a'] .standard ['a'] c {} rfl rfl
  have hsettle : (ofSource ['x', '\n', 'a'] .standard).settle ⟨"Identifier", false⟩ ['a']
      c.node.placement.toAnchor =
        ⟨['a'], { span := some ⟨2, 3⟩, line := some 2, column := some 2 }, [], none⟩ := by decide +kernel
  obtain ⟨p', hp', hsettled⟩ := resolve_of_settle (c := c) (p := {}) rfl rfl hsettle
  refine ⟨?_, ?_⟩
  · have hspan := hmain.1 p' (Or.inl hp')
    rw [hsettled.1] at hspan
    exact hspan
  · obtain ⟨line, column, hline, hcolumn, -, -, -, hon, -⟩ :=
      hmain.2 0 ['a'] c.node.placement.toAnchor 2 ⟨.here (fun _ => by decide) rfl, rfl, by decide⟩
    obtain rfl : 2 = line := Option.some.inj hline
    obtain rfl : 2 = column := Option.some.inj hcolumn
    exact hon.2 (by decide)

/-- A name that is reported on line 0 is found on the last line. -/
theorem found_on_no_line :
    let c := Cursor.root (.mk "Identifier" { raw := some ['a'], line := some 0, column := some 1 } [])
    (∃ p', (ofSource ['a'] .standard).resolve c {} = .ok () p' ∧
      (p'.mark c).placement =
        { raw := some ['a'], span := some ⟨0, 1⟩, line := some 0, column := some 1 }) ∧
      ∀ column start, ¬ OnLine ['a'] .standard 0 column start := by
  intro c
  have hsettle : (ofSource ['a'] .standard).settle ⟨"Identifier", false⟩ ['a'] c.node.placement.toAnchor =
      ⟨['a'], { span := some ⟨0, 1⟩, line := some 0, column := some 1 }, [], none⟩ := by decide +kernel
  obtain ⟨p', hp', hsettled⟩ := resolve_of_settle (c := c) (p := {}) rfl rfl hsettle
  refine ⟨⟨p', hp', by rw [hsettled.1]⟩, fun column start hon => ?_⟩
  have := hon.line_le.1
  omega

end

end Locator

end SyntaxSpans
