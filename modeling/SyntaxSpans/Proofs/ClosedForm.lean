import Mathlib.Order.Bounds.Defs
import SyntaxSpans.Proofs.Bounds
import SyntaxSpans.Proofs.Outcome
import SyntaxSpans.Proofs.Stripping

/-!
# Settling at a glance

Settling searches, takes parentheses off and begins again. What comes of it can be said without
going through the steps (`resolve_settled`). Of the texts that are left after `0`, `1`, ... pairs,
the first that is placed decides where the node stands: the pairs in front of it are taken off the
text alone, those behind it off the text and the span. A text is placed at the span that was
reported, if that reads it, and else at the last of the offsets that the search tries and finds it at
(`Locator.PlacedAt`).
-/

namespace SyntaxSpans

/-- A node has been dealt with and stands at `q`; nothing else has changed. -/
def Progress.Settled (p : Progress) (c : Cursor) (q : Placement) (p' : Progress) : Prop :=
  p'.mark c = { p.mark c with placement := q, resolved := true } ∧
  ∀ d : Cursor, d.path ≠ c.path → p'.mark d = p.mark d

namespace Locator

/-! ## Where a text is placed -/

/-- The offsets that a search from `reported` tries and finds the text at. -/
def hits (l : Locator) (raw : Text) (reported : Int) (tries : Nat) : Set Int :=
  {k | reported - tries < k ∧ k ≤ reported ∧ 0 ≤ k ∧ slice l.source k (k + raw.length) = raw}

/-- A text with the given anchor is placed at a span. -/
inductive PlacedAt (l : Locator) (a : Anchor) (raw : Text) (s : Span) : Prop where
  /-- The reported span reads it. -/
  | kept (hspan : a.span = some s) (hread : s.read l.source = raw)
  /-- The reported span does not, and this is the last hit of the search. -/
  | found {line column reported : Int} (hmiss : l.reads a.span raw = false)
      (hline : a.line = some line) (hcolumn : a.column = some column)
      (hreported : l.lines.offset? (line - 1) (column - 1) = some reported)
      (hlast : IsGreatest (l.hits raw reported l.window.size) s.start)
      (hstop : s.stop = s.start + raw.length)

def Unplaced (l : Locator) (a : Anchor) (raw : Text) : Prop := ∀ s, ¬ l.PlacedAt a raw s

/-- An anchor whose span is a range of the source, and whose line, if a column comes with it, is a
line of the source. -/
structure Anchored (l : Locator) (a : Anchor) : Prop where
  span : ∀ s, a.span = some s → s.Inside l.source
  line : ∀ line column, a.line = some line → a.column = some column →
    1 ≤ line ∧ line ≤ l.lines.starts.length

section
variable {l : Locator} {raw : Text} {a : Anchor} {s : Span}

/-- **The search** goes backwards, so it ends at the last hit. -/
theorem searchFrom_eq_some_iff {reported k : Int} {tries : Nat} :
    l.searchFrom raw reported tries = some k ↔ IsGreatest (l.hits raw reported tries) k := by
  induction tries generalizing reported with
  | zero =>
    refine ⟨fun h => by simp [searchFrom] at h, fun h => ?_⟩
    obtain ⟨hlow, hhigh, -⟩ := h.1
    omega
  | succ tries ih =>
    rw [searchFrom]
    split
    · next hneg =>
      refine ⟨fun h => by simp at h, fun h => ?_⟩
      obtain ⟨-, hhigh, h0, -⟩ := h.1
      omega
    · next hpos =>
      split
      · next hhit =>
        have hmem : reported ∈ l.hits raw reported (tries + 1) :=
          ⟨by omega, Int.le_refl _, Int.not_lt.1 hpos, beq_iff_eq.1 hhit⟩
        constructor
        · intro h
          cases h
          exact ⟨hmem, fun k hk => hk.2.1⟩
        · intro h
          rw [Int.le_antisymm h.1.2.1 (h.2 hmem)]
      · next hmiss =>
        -- without a hit at the reported offset the others are those of the remaining tries
        have hsame : l.hits raw reported (tries + 1) = l.hits raw (reported - 1) tries := by
          ext k
          constructor
          · rintro ⟨hlow, hhigh, h0, hk⟩
            have hne : k ≠ reported := by
              rintro rfl
              exact hmiss (beq_iff_eq.2 hk)
            exact ⟨by omega, by omega, h0, hk⟩
          · rintro ⟨hlow, hhigh, h0, hk⟩
            exact ⟨by omega, by omega, h0, hk⟩
        rw [ih, hsame]

theorem search_of_placedAt (h : l.PlacedAt a raw s) :
    l.search raw a = .ok { a with span := some s } ∧ l.reads (some s) raw = true := by
  cases h with
  | kept hspan hread =>
    have hreads : l.reads (some s) raw = true := by simp [reads, hread]
    refine ⟨?_, hreads⟩
    rw [search_of_reads (by rw [hspan]; exact hreads), ← hspan]
  | @found line column reported hmiss hline hcolumn hreported hlast hstop =>
    obtain ⟨start, stop⟩ := s
    obtain rfl : stop = start + raw.length := hstop
    have hsearch : l.searchFrom raw reported l.window.size = some start :=
      searchFrom_eq_some_iff.2 hlast
    refine ⟨?_, ?_⟩
    · rw [search, hmiss, if_neg Bool.false_ne_true, hline, hcolumn]
      simp only [hreported, hsearch]
    · simp [reads, Span.read, hlast.1.2.2.2]

theorem Anchored.offset (h : l.Anchored a) {line column : Int} (hline : a.line = some line)
    (hcolumn : a.column = some column) :
    ∃ reported, l.lines.offset? (line - 1) (column - 1) = some reported := by
  obtain ⟨h1, hle⟩ := h.line line column hline hcolumn
  have hlt : (line - 1).toNat < l.lines.starts.length := by omega
  refine ⟨l.lines.starts[(line - 1).toNat] + (column - 1), ?_⟩
  rw [LineMap.offset?, LineMap.start?, if_pos (by omega), List.getElem?_eq_getElem hlt]
  rfl

theorem search_of_unplaced (ha : l.Anchored a) (h : l.Unplaced a raw) :
    l.search raw a = .ok a ∧ l.reads a.span raw = false := by
  have hmiss : l.reads a.span raw = false := by
    rw [Bool.eq_false_iff]
    intro hreads
    obtain ⟨s, hs, hread⟩ := span_of_reads hreads
    exact h s (.kept hs hread)
  refine ⟨?_, hmiss⟩
  rw [search, hmiss, if_neg Bool.false_ne_true]
  split
  · next line column hline hcolumn =>
    obtain ⟨reported, hreported⟩ := ha.offset hline hcolumn
    simp only [hreported]
    split
    · next start hstart =>
      have hlast := searchFrom_eq_some_iff.1 hstart
      exact absurd (.found hmiss hline hcolumn hreported hlast rfl) (h ⟨start, start + raw.length⟩)
    · rfl
  · rfl

/-- **Where a text is placed** is where the search finds it. -/
theorem placedAt_iff_search (ha : l.Anchored a) : l.PlacedAt a raw s ↔
    l.search raw a = .ok { a with span := some s } ∧ l.reads (some s) raw = true := by
  refine ⟨search_of_placedAt, fun ⟨hsearch, hreads⟩ => ?_⟩
  by_cases hun : l.Unplaced a raw
  · obtain ⟨hsame, hmiss⟩ := search_of_unplaced ha hun
    rw [hsearch, Except.ok.injEq] at hsame
    rw [← hsame, hreads] at hmiss
    cases hmiss
  · obtain ⟨t, ht⟩ := not_forall_not.1 hun
    have hfound := (search_of_placedAt ht).1
    simp only [hsearch, Except.ok.injEq, Anchor.mk.injEq, Option.some.injEq, and_true] at hfound
    rwa [hfound]

theorem unplaced_of_search (h : l.search raw a = .ok a) (hmiss : l.reads a.span raw = false) :
    l.Unplaced a raw := by
  intro s hs
  obtain ⟨hsearch, hreads⟩ := search_of_placedAt hs
  rw [h, Except.ok.injEq] at hsearch
  rw [hsearch, hreads] at hmiss
  cases hmiss

theorem standsAt_of_inside (hinside : s.Inside l.source) (hread : s.read l.source = raw) :
    ∃ start : Nat, s = ⟨start, start + raw.length⟩ ∧ raw.StandsAt l.source start := by
  obtain ⟨h0, hle, hend⟩ := hinside
  have hlen := s.length_read l.source
  rw [hread, Span.cut_eq_min h0, Span.cut_eq_min (by omega)] at hlen
  suffices hs : s = ⟨s.start.toNat, s.start.toNat + raw.length⟩ by
    refine ⟨s.start.toNat, hs, reads_iff_standsAt.1 ?_⟩
    rw [← hs, reads, hread, beq_self_eq_true]
  obtain ⟨start, stop⟩ := s
  simp only [Span.mk.injEq] at h0 hle hend hlen ⊢
  omega

theorem PlacedAt.standsAt (ha : l.Anchored a) (h : l.PlacedAt a raw s) :
    ∃ start : Nat, s = ⟨start, start + raw.length⟩ ∧ raw.StandsAt l.source start := by
  have hreads := (search_of_placedAt h).2
  cases h with
  | kept hspan hread => exact standsAt_of_inside (ha.span s hspan) hread
  | found _ _ _ _ hlast hstop =>
    have h0 := hlast.1.2.2.1
    have hs : s = ⟨s.start.toNat, s.start.toNat + raw.length⟩ := by
      obtain ⟨start, stop⟩ := s
      simp only [Span.mk.injEq] at h0 hstop ⊢
      omega
    rw [hs] at hreads
    exact ⟨s.start.toNat, hs, reads_iff_standsAt.1 hreads⟩

end

/-! ## What comes of settling -/

section
variable {l : Locator} {role : Role} {raw inner : Text} {a : Anchor} {s : Span} {j : Nat}

theorem settle_lost_step (hkind : a.span = none → role.kind ≠ "ConcatOp") (ha : l.Anchored a)
    (hstep : role.isStep = true) (h : l.Unplaced a raw) :
    l.settle role raw a = ⟨raw, a, [.ignoredStep a.line a.column], none⟩ := by
  obtain ⟨hsearch, hreads⟩ := search_of_unplaced ha h
  rw [settle, if_neg (by simpa using hkind)]
  simp only [hsearch, hreads, hstep, Bool.false_eq_true, if_false, if_true]

/-- One round of settling a text that is placed nowhere. -/
theorem settle_unplaced (hkind : a.span = none → role.kind ≠ "ConcatOp") (ha : l.Anchored a)
    (hstep : role.isStep = false) (h : l.Unplaced a raw) :
    l.settle role raw a =
      match strip? raw with
      | .error e => ⟨raw, a, [], some (.bracket e)⟩
      | .ok none => ⟨raw, a, [], some (.gap .misplaced role.kind a.line a.column)⟩
      | .ok (some inner) => (l.settle role inner a).after (.stripped role.kind inner) := by
  obtain ⟨hsearch, hreads⟩ := search_of_unplaced ha h
  rw [settle, if_neg (by simpa using hkind)]
  simp only [hsearch, hreads, hstep, Bool.false_eq_true, if_false]
  split <;> simp_all

/-- A text that leaves its first parenthesis open is refused, unless it is that of a `step` that is
placed nowhere. -/
theorem settle_refused (hkind : a.span = none → role.kind ≠ "ConcatOp") (ha : l.Anchored a)
    {e : Bracket.Error} (hstrip : strip? raw = .error e)
    (hlost : ¬ (role.isStep = true ∧ l.Unplaced a raw)) :
    (l.settle role raw a).fault = some (.bracket e) := by
  by_cases hun : l.Unplaced a raw
  · have hstep : role.isStep = false := Bool.eq_false_iff.2 fun h => hlost ⟨h, hun⟩
    rw [settle_unplaced hkind ha hstep hun, hstrip]
  · obtain ⟨s, hs⟩ := not_forall_not.1 hun
    obtain ⟨hsearch, hreads⟩ := search_of_placedAt hs
    obtain ⟨start, rfl, hstands⟩ := hs.standsAt ha
    rw [settle_of_search (by simpa using hkind) hsearch hreads,
      (settle_of_standsAt rfl hstands).1 e hstrip]

theorem settle_nowhere {raw : Text} (hkind : a.span = none → role.kind ≠ "ConcatOp")
    (ha : l.Anchored a) (hstep : role.isStep = false) {inner? : Option Text}
    (hstrip : strip? raw = .ok inner?) (h : ∀ j ≤ strips raw, l.Unplaced a (raw.peeled j)) :
    l.settle role raw a = ⟨raw.peeled (strips raw), a, strippings role.kind raw,
      some (.gap .misplaced role.kind a.line a.column)⟩ := by
  have h0 : l.Unplaced a raw := h 0 (Nat.zero_le _)
  rw [settle_unplaced hkind ha hstep h0, hstrip]
  cases inner? with
  | none =>
    have hnot : ∀ inner, strip? raw ≠ .ok (some inner) := by simp [hstrip]
    rw [strips_of_not_some hnot, strippings_of_not_some _ hnot]
    rfl
  | some inner =>
    obtain ⟨inner?, hok⟩ := strip?_ok_of_some hstrip
    have hinner : ∀ j ≤ strips inner, l.Unplaced a (inner.peeled j) := by
      intro j hj
      rw [← peeled_of_some hstrip]
      exact h (j + 1) (by rw [strips_of_some hstrip]; omega)
    have hlen := length_of_strip? hstrip
    rw [strips_of_some hstrip, peeled_of_some hstrip, strippings_of_some _ hstrip]
    simp only
    rw [settle_nowhere hkind ha hstep hok hinner]
    rfl
termination_by raw.length

/-- **The first text that is placed** decides: the remaining pairs are taken off text and span. -/
theorem settle_first (hkind : a.span = none → role.kind ≠ "ConcatOp") (ha : l.Anchored a)
    {inner? : Option Text} (hstrip : strip? raw = .ok inner?) (hj : j ≤ strips raw)
    (hstep : role.isStep = true → j = 0) (hfirst : ∀ i < j, l.Unplaced a (raw.peeled i))
    (h : l.PlacedAt a (raw.peeled j) s) :
    l.settle role raw a = ⟨raw.peeled (strips raw),
      Anchor.insetBy { a with span := some s } (strips raw - j), strippings role.kind raw, none⟩ := by
  induction j generalizing raw inner? with
  | zero =>
    -- the text itself is placed there, and loses its pairs together with its span
    replace h : l.PlacedAt a raw s := h
    obtain ⟨hsearch, hreads⟩ := search_of_placedAt h
    obtain ⟨start, rfl, hstands⟩ := h.standsAt ha
    rw [settle_of_search (by simpa using hkind) hsearch hreads,
      (settle_of_standsAt rfl hstands).2 _ hstrip]
    rfl
  | succ j ih =>
    have hstep : role.isStep = false := by
      rw [Bool.eq_false_iff]
      exact fun h => Nat.succ_ne_zero j (hstep h)
    -- the text is placed nowhere, and its outer pair is taken off it alone
    have h0 : l.Unplaced a raw := hfirst 0 (Nat.succ_pos j)
    rw [settle_unplaced hkind ha hstep h0, hstrip]
    cases inner? with
    | none =>
      rw [strips_of_not_some (by simp [hstrip])] at hj
      cases hj
    | some inner =>
      obtain ⟨inner?, hok⟩ := strip?_ok_of_some hstrip
      rw [strips_of_some hstrip] at hj ⊢
      rw [peeled_of_some hstrip] at h ⊢
      have hinner : ∀ i < j, l.Unplaced a (inner.peeled i) := by
        intro i hi
        rw [← peeled_of_some hstrip]
        exact hfirst (i + 1) (by omega)
      simp only
      rw [ih hok (by omega) (by simp [hstep]) hinner h, strippings_of_some _ hstrip,
        Nat.add_sub_add_right]
      rfl

end

/-! ## What comes of resolving a node with text -/

section
variable {l : Locator} {c : Cursor} {p : Progress} {raw : Text}

/-- **Resolving a node with text** settles the text, whatever else has been found out. -/
theorem resolve_text_outcome (hnew : (p.mark c).resolved = false)
    (hraw : (p.mark c).placement.raw = some raw) :
    let s := l.settle ⟨c.kind, (p.mark c).linked && c.isIn "step"⟩ raw (p.mark c).placement.toAnchor
    Outcome (l.resolve c) p
      (fun _ p' => s.fault = none ∧ p.Settled c { s.anchor with raw := some s.raw } p')
      (fun fault p' => s.fault = some fault ∧ p.Settled c { s.anchor with raw := some s.raw } p') := by
  intro s
  rw [resolve, outcome_bind, outcome_mark, hnew, if_neg Bool.false_ne_true, outcome_bind,
    outcome_markResolved, locate, outcome_bind, outcome_placement]
  simp only [Progress.mark_setMark_self, hraw]
  rw [outcome_settleAt]
  simp only [Progress.mark_setMark_self]
  have hsettled : p.Settled c { s.anchor with raw := some s.raw }
      (((p.setMark c { p.mark c with resolved := true }).setMark c
        { p.mark c with
          placement := { s.anchor with raw := some s.raw }, resolved := true }).record s.records) := by
    refine ⟨by simp, fun d hd => ?_⟩
    rw [Progress.mark_record, Progress.mark_setMark_of_ne _ _ (Ne.symm hd),
      Progress.mark_setMark_of_ne _ _ (Ne.symm hd)]
  split
  · next fault hfault => exact ⟨hfault, hsettled⟩
  · next hnone => exact ⟨hnone, hsettled⟩

theorem resolve_of_settle (hnew : (p.mark c).resolved = false)
    (hraw : (p.mark c).placement.raw = some raw) {raw' : Text} {a' : Anchor} {records : List Record}
    (h : l.settle ⟨c.kind, (p.mark c).linked && c.isIn "step"⟩ raw (p.mark c).placement.toAnchor =
      ⟨raw', a', records, none⟩) :
    ∃ p', l.resolve c p = .ok () p' ∧ p.Settled c { a' with raw := some raw' } p' := by
  have hout := resolve_text_outcome (l := l) hnew hraw
  rw [h, Outcome] at hout
  split at hout
  · next p' hp' => exact ⟨p', hp', hout.2⟩
  · next => cases hout.1

theorem resolve_of_fault (hnew : (p.mark c).resolved = false)
    (hraw : (p.mark c).placement.raw = some raw) {fault : Fault}
    (h : (l.settle ⟨c.kind, (p.mark c).linked && c.isIn "step"⟩ raw
      (p.mark c).placement.toAnchor).fault = some fault) :
    ∃ p', l.resolve c p = .error fault p' := by
  have hout := resolve_text_outcome (l := l) hnew hraw
  rw [Outcome] at hout
  split at hout
  · next => rw [h] at hout; cases hout.1
  · next fault' p' hp' =>
    rw [h] at hout
    cases hout.1
    exact ⟨p', hp'⟩

/-- A text is refused just if the parenthesis that it begins with has no counterpart. -/
theorem refused_iff : (raw.head? = some '(' ∧ ∀ i, Bracket.round.counterpart raw 0 ≠ .ok i) ↔
    strip? raw = .error (.unmatched .round 0) := by
  constructor
  · rintro ⟨hhead, hnone⟩
    obtain ⟨inner, rfl⟩ := List.head?_eq_some_iff.1 hhead
    cases hstrip : strip? ('(' :: inner) with
    | error e => rw [(strip?_eq_error_iff.1 hstrip).1]
    | ok inner? =>
      rw [strip?] at hstrip
      split at hstrip
      · cases hstrip
      · next index hindex => exact absurd hindex (hnone index)
  · intro hstrip
    obtain ⟨-, rest, rfl, -⟩ := strip?_eq_error_iff.1 hstrip
    refine ⟨rfl, fun i hi => ?_⟩
    rw [strip?, hi] at hstrip
    cases hstrip

/-- **The closed form of resolving a node with text**, for an anchor that is in order. A `step` whose
text is placed nowhere stays. A text that leaves its first parenthesis open is refused. A text that is
placed nowhere, whatever pairs are taken off it, is a gap. Else all pairs are taken off the text, and
those behind the first text that is placed are taken off its span and the column as well. -/
theorem resolve_settled {source : Text} {window : Window} (hnew : (p.mark c).resolved = false)
    (hraw : (p.mark c).placement.raw = some raw)
    (hkind : (p.mark c).placement.span = none → c.kind ≠ "ConcatOp")
    (ha : (ofSource source window).Anchored (p.mark c).placement.toAnchor) :
    let l := ofSource source window
    let a := (p.mark c).placement.toAnchor
    let lost := ((p.mark c).linked && c.isIn "step") = true ∧ l.Unplaced a raw
    let refused := raw.head? = some '(' ∧ ∀ i, Bracket.round.counterpart raw 0 ≠ .ok i
    (lost → ∃ p', l.resolve c p = .ok () p' ∧ p.Settled c (p.mark c).placement p') ∧
    (¬ lost → refused → ∃ p', l.resolve c p = .error (.bracket (.unmatched .round 0)) p') ∧
    (¬ lost → ¬ refused → (∀ j ≤ strips raw, l.Unplaced a (raw.peeled j)) →
      ∃ p', l.resolve c p = .error (.gap .misplaced c.kind a.line a.column) p') ∧
    (¬ lost → ¬ refused → ∀ j ≤ strips raw, (∀ i < j, l.Unplaced a (raw.peeled i)) →
      ∀ s, l.PlacedAt a (raw.peeled j) s →
      ∃ p', l.resolve c p = .ok () p' ∧
        p.Settled c
          { raw := some (raw.peeled (strips raw))
            span := some ⟨s.start + (strips raw - j : Nat), s.stop - (strips raw - j : Nat)⟩
            line := a.line
            column := a.column.map (· - ((strips raw - j : Nat) : Int)) } p') := by
  intro l a lost refused
  -- a text that is not refused is stripped, or has nothing to be stripped of
  have hstrips : ¬ refused → ∃ inner?, strip? raw = .ok inner? := by
    intro hnot
    cases hstrip : strip? raw with
    | error e =>
      rw [(strip?_eq_error_iff.1 hstrip).1] at hstrip
      exact absurd (refused_iff.2 hstrip) hnot
    | ok inner? => exact ⟨inner?, rfl⟩
  refine ⟨fun hlost => ?_, fun hlost href => ?_, fun hlost href hun => ?_,
    fun hlost href j hj hun s hs => ?_⟩
  · obtain ⟨p', hp', hsettled⟩ :=
      resolve_of_settle hnew hraw (settle_lost_step hkind ha hlost.1 hlost.2)
    rw [← hraw] at hsettled
    exact ⟨p', hp', hsettled⟩
  · exact resolve_of_fault hnew hraw (settle_refused hkind ha (refused_iff.1 href) hlost)
  · obtain ⟨inner?, hstrip⟩ := hstrips href
    have hstep : ((p.mark c).linked && c.isIn "step") = false :=
      Bool.eq_false_iff.2 fun hstep => hlost ⟨hstep, hun 0 (Nat.zero_le _)⟩
    refine resolve_of_fault hnew hraw ?_
    rw [settle_nowhere hkind ha hstep hstrip hun]
  · obtain ⟨inner?, hstrip⟩ := hstrips href
    have hstep : ((p.mark c).linked && c.isIn "step") = true → j = 0 := by
      intro hstep
      by_contra hne
      exact hlost ⟨hstep, hun 0 (Nat.pos_of_ne_zero hne)⟩
    exact resolve_of_settle hnew hraw (settle_first hkind ha hstrip hj hstep hun hs)

/-- A name that is reported with two pairs of parentheses, where the source has one. -/
theorem resolve_settled_doubled :
    let raw : Text := ['(', '(', 'a', ')', ')']
    let c := Cursor.root (.mk "Identifier" { raw := some raw, line := some 1, column := some 1 } [])
    ∃ p', (ofSource ['(', 'a', ')'] .standard).resolve c {} = .ok () p' ∧
      (p'.mark c).placement =
        { raw := some ['a'], span := some ⟨1, 2⟩, line := some 1, column := some 0 } := by
  intro raw c
  have ha : (ofSource ['(', 'a', ')'] .standard).Anchored
      { line := some 1, column := some 1 } := by
    refine ⟨nofun, fun line column hline hcolumn => ?_⟩
    cases hline
    decide
  have hstrips : strips raw = 2 := by decide +kernel
  have hrefused : ¬ (raw.head? = some '(' ∧ ∀ i, Bracket.round.counterpart raw 0 ≠ .ok i) :=
    fun h => h.2 4 (by decide)
  obtain ⟨-, -, -, hfirst⟩ :=
    @resolve_settled c {} raw ['(', 'a', ')'] .standard rfl rfl (fun _ => by decide) ha
  have hwhole : ∀ i < 1,
      (ofSource ['(', 'a', ')'] .standard).Unplaced { line := some 1, column := some 1 } (raw.peeled i) := by
    intro i hi
    obtain rfl : i = 0 := by omega
    exact unplaced_of_search rfl rfl
  obtain ⟨p', hp', hsettled⟩ := hfirst (fun h => by cases h.1) hrefused 1 (by omega) hwhole ⟨0, 3⟩
    ((placedAt_iff_search ha).2 (by decide))
  refine ⟨p', hp', ?_⟩
  rw [hsettled.1, hstrips]
  rfl

end

end Locator

end SyntaxSpans
