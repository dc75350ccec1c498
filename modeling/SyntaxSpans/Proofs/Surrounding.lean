import SyntaxSpans.Placement.Session
import SyntaxSpans.Proofs.ClosedForm
import SyntaxSpans.Proofs.Counterpart

/-!
# Parentheses around a span

Whether parentheses stand around a span is asked of the whole source, whether they are taken off a text is
asked of that text alone. Both ask for the counterpart of an opening parenthesis, and the search for it is
local: a group of the source is a group of every slice that holds it (`Bracket.groupAt_slice_iff`). So the
two answers agree (`surrounds_iff_strip?`), and a node that pairs were taken off stands in the last of them
(`Session.surrounded_of_strip`).
-/

namespace SyntaxSpans

/-! ## One search in two texts -/

namespace Bracket

section
variable {b : Bracket} {source raw : Text} {start n s e : Nat}

/-- **The search is local.** Where the group that begins at `start` ends can be read off the text from there
to its end. -/
theorem groupAt_slice_iff (hn : start + n < source.length) :
    b.GroupAt (slice source start (start + (n + 1 : Nat))) 0 n ↔ b.GroupAt source start (start + n) := by
  rw [slice_add]
  constructor
  · rintro ⟨inner, after, hdrop, hinner, hlast⟩
    have hlength := congrArg List.length hdrop
    simp at hlength
    obtain rfl : after = [] := List.length_eq_zero_iff.1 (by omega)
    refine ⟨inner, (source.drop start).drop (n + 1), ?_, hinner, by omega⟩
    conv_lhs =>
      rw [← List.take_append_drop (n + 1) (source.drop start), ← List.drop_zero (l := List.take _ _), hdrop]
    simp
  · rintro ⟨inner, after, hdrop, hinner, hlast⟩
    obtain rfl : n = inner.length + 1 := by omega
    refine ⟨inner, [], ?_, hinner, by omega⟩
    rw [hdrop, List.drop_zero, List.take_succ_cons, List.take_length_add_append]
    rfl

/-- The opening parenthesis right before a span, with its counterpart right behind it. -/
theorem surrounds_eq_true_iff (hs : 1 ≤ s) : surrounds "(" (some ⟨s, e⟩) source = .ok true ↔
    source[s - 1]? = some '(' ∧ round.counterpart source (s - 1 : Nat) = .ok e := by
  have hbefore : (s : Int) - 1 = (s - 1 : Nat) := by omega
  have hfind : ∀ start, find "(" source start = round.counterpart source start := fun _ => rfl
  simp only [surrounds, hbefore, at?, Int.natCast_nonneg, if_true, Int.toNat_natCast, hfind]
  rw [if_neg (by omega)]
  cases hc : source[s - 1]? with
  | none => simp
  | some c =>
    by_cases hopen : c = '('
    · subst hopen
      cases round.counterpart source (s - 1 : Nat) with
      | error error => simp [Except.map]
      | ok i => simp [Except.map]
    · have hne : String.singleton c ≠ "(" := fun h => hopen (by simpa using congrArg String.toList h)
      simp [hne, hopen]

end

end Bracket

section
variable {source raw : Text} {s e : Nat}

/-- A pair is taken off a text that begins with an opening parenthesis and ends with its counterpart. -/
theorem exists_strip?_iff : (∃ inner, strip? raw = .ok (some inner)) ↔
    raw.head? = some '(' ∧ Bracket.round.counterpart raw 0 = .ok ((raw.length : Int) - 1) := by
  unfold strip?
  split
  · next inner =>
    cases Bracket.round.counterpart ('(' :: inner) 0 with
    | error e => simp
    | ok i => simp
  · next hnot =>
    cases raw with
    | nil => simp
    | cons c rest =>
      have hne : c ≠ '(' := fun h => hnot rest (h ▸ rfl)
      simp [hne]

/-- **The two checks agree**: parentheses stand around a span just if they can be taken off the text that
holds one character more at each end. -/
theorem surrounds_iff_strip? (hs : 1 ≤ s) (hse : s ≤ e) (he : e < source.length) :
    Bracket.surrounds "(" (some ⟨s, e⟩) source = .ok true ↔
      ∃ inner, strip? (slice source ((s : Int) - 1) (e + 1)) = .ok (some inner) := by
  obtain ⟨start, rfl⟩ := Nat.exists_eq_add_of_le' hs
  obtain ⟨n, rfl⟩ := Nat.exists_eq_add_of_le (show start ≤ e by omega)
  have hslice : slice source (((start + 1 : Nat) : Int) - 1) (((start + n : Nat) : Int) + 1) =
      slice source start (start + (n + 1 : Nat)) := by
    congr 1
    omega
  have hlength : (slice source start (start + (n + 1 : Nat))).length = n + 1 := by
    rw [slice_add]
    simp
    omega
  have hhead : (slice source start (start + (n + 1 : Nat))).head? = source[start]? := by
    rw [slice_add, List.head?_take, if_neg (by omega), List.head?_drop]
  rw [Bracket.surrounds_eq_true_iff hs, hslice, exists_strip?_iff, hhead, hlength, Nat.add_sub_cancel]
  refine and_congr_right fun hopen => ?_
  have hopen' : (slice source start (start + (n + 1 : Nat)))[0]? = some Bracket.round.opening := by
    rw [← List.head?_eq_getElem?, hhead]
    exact hopen
  have hcounterpart := Bracket.counterpart_eq_ok_iff (b := .round) (i := ((n + 1 : Nat) : Int) - 1) hopen'
  rw [Int.natCast_zero] at hcounterpart
  rw [Bracket.counterpart_eq_ok_iff (b := .round) hopen, hcounterpart]
  -- a group that begins inside the slice ends at the same place in the source
  have hlocal := Bracket.groupAt_slice_iff (b := .round) he
  constructor
  · rintro ⟨k, hk, hgroup⟩
    obtain rfl : start + n = k := by omega
    exact ⟨n, by omega, hlocal.2 hgroup⟩
  · rintro ⟨k, hk, hgroup⟩
    obtain rfl : n = k := by omega
    exact ⟨start + n, rfl, hlocal.1 hgroup⟩

theorem standsAt_peeled {start j : Nat} (h : raw.StandsAt source start) (hj : j ≤ strips raw) :
    (raw.peeled j).StandsAt source (start + j) ∧ (raw.peeled j).length + 2 * j = raw.length := by
  induction j with
  | zero => exact ⟨h, rfl⟩
  | succ j ih =>
    obtain ⟨hstands, hlength⟩ := ih (by omega)
    obtain ⟨inner, hinner⟩ := (strip?_peeled_iff raw (by omega)).2 (show j < strips raw by omega)
    have hpair := length_of_strip? hinner
    rw [Text.peeled, slice_of_strip? hinner]
    exact ⟨hstands.inside hinner, by omega⟩

/-- **A text without its pairs** stands in the last of them. -/
theorem surrounds_insetBy {start : Nat} (h : raw.StandsAt source start) (hstrips : strips raw ≠ 0)
    (hle : start + raw.length ≤ source.length) :
    Bracket.surrounds "("
      (some ⟨start + strips raw, start + raw.length - strips raw⟩) source = .ok true := by
  obtain ⟨k, hk⟩ := Nat.exists_eq_succ_of_ne_zero hstrips
  obtain ⟨hstands, hlength⟩ := standsAt_peeled h (show k ≤ strips raw by omega)
  have htwo := two_mul_strips_le raw
  have hinner := (strip?_peeled_iff raw (by omega)).2 (show k < strips raw by omega)
  have hread : slice source ((start + strips raw : Nat) - 1 : Int)
      ((start + raw.length - strips raw : Nat) + 1) = raw.peeled k := by
    rw [← slice_eq_iff_standsAt.2 hstands]
    congr 1 <;> omega
  have hmain : Bracket.surrounds "("
      (some ⟨(start + strips raw : Nat), (start + raw.length - strips raw : Nat)⟩) source = .ok true :=
    (surrounds_iff_strip? (by omega) (by omega) (by omega)).2 (hread ▸ hinner)
  convert hmain using 4 <;> omega

end

/-! ## Taking parentheses off a node -/

namespace Locator

section
variable {l : Locator} {c : Cursor} {p : Progress} {raw inner : Text}

/-- Settling never makes a text longer. -/
theorem length_settle_le (l : Locator) (role : Role) (raw : Text) (a : Anchor) :
    (l.settle role raw a).raw.length ≤ raw.length := by
  fun_induction l.settle role raw a with
  | case5 raw a _ a' _ _ inner hstrip ih =>
    have := length_of_strip? hstrip
    simp only [Settled.after]
    omega
  | case9 raw a _ a' _ _ _ inner hstrip ih =>
    have := length_of_strip? hstrip
    simp only [Settled.after]
    omega
  | _ => exact Nat.le_refl _

/-- A text that no pair is taken off stays as it is. -/
theorem strip_outcome_of_not_some (adjust : Bool) (hraw : (p.mark c).placement.raw = some raw)
    (h : ∀ inner, strip? raw ≠ .ok (some inner)) :
    Outcome (l.strip c adjust) p (fun answer p' => answer = false ∧ p' = p) (fun _ p' => p' = p) := by
  rw [strip, outcome_bind, outcome_placement]
  simp only [hraw]
  split
  · rfl
  · exact ⟨rfl, rfl⟩
  · next inner hinner => exact absurd hinner (h inner)

/-- Behind a pair that is taken off, the node is settled anew. -/
theorem strip_outcome_of_some (adjust : Bool) (hraw : (p.mark c).placement.raw = some raw)
    (h : strip? raw = .ok (some inner)) :
    let q := (p.mark c).placement.toAnchor
    let s := l.settle ⟨c.kind, (p.mark c).linked && c.isIn "step"⟩ inner (if adjust then q.inset else q)
    Outcome (l.strip c adjust) p
      (fun answer p' => answer = true ∧ s.fault = none ∧
        (p'.mark c).placement = { s.anchor with raw := some s.raw })
      (fun fault p' => s.fault = some fault ∧
        (p'.mark c).placement = { s.anchor with raw := some s.raw }) := by
  intro q s
  rw [strip, outcome_bind, outcome_placement]
  simp only [hraw, h, outcome_bind, outcome_place, outcome_record]
  rw [outcome_settleAt]
  simp only [Progress.mark_setMark_self, Progress.mark_record]
  split
  · next fault hfault => exact ⟨hfault, by simp [s, q]⟩
  · next hnone => exact ⟨rfl, hnone, by simp [s, q]⟩

end

end Locator

namespace Session

def placement (s : Session) (c : Cursor) : Placement := (s.progress.mark c).placement

/-- The step takes a pair of parentheses off the text of a node, whatever comes of what is left. -/
def Strips (s : Session) (c : Cursor) (adjust : Bool) : Prop :=
  ((s.strip c adjust).1.placement c).raw ≠ (s.placement c).raw

section
variable {s s' : Session} {c : Cursor} {raw inner : Text}

/-- What holds of a step, whether or not it ends in a fault, holds in the session behind it. -/
theorem run_of_outcome {α : Type} {step : Resolving α} {post : α → Progress → Prop}
    {failed : Fault → Progress → Prop} (h : Outcome step s.progress post failed) :
    (∃ a, (s.run step).2 = .ok a ∧ post a (s.run step).1.progress) ∨
      ∃ fault, (s.run step).2 = .error fault ∧ failed fault (s.run step).1.progress := by
  unfold Outcome at h
  unfold run
  split at h
  · next a p' hstep =>
    simp only [hstep]
    exact Or.inl ⟨a, rfl, h⟩
  · next fault p' hstep =>
    simp only [hstep]
    exact Or.inr ⟨fault, rfl, h⟩

theorem locator_run {α : Type} (s : Session) (step : Resolving α) :
    (s.run step).1.locator = s.locator := by
  unfold run
  split <;> rfl

theorem strip_of_not_some (adjust : Bool) (hraw : (s.placement c).raw = some raw)
    (h : ∀ inner, strip? raw ≠ .ok (some inner)) :
    (s.strip c adjust).1.placement c = s.placement c ∧
      ∀ answer, (s.strip c adjust).2 = .ok answer → answer = false := by
  rcases run_of_outcome (s.locator.strip_outcome_of_not_some adjust hraw h) with
    ⟨answer, hanswer, rfl, hsame⟩ | ⟨fault, hfault, hsame⟩
  · exact ⟨by rw [placement, strip, hsame]; rfl, fun answer' h' => by
      rw [strip, hanswer] at h'
      exact (Except.ok.inj h').symm⟩
  · exact ⟨by rw [placement, strip, hsame]; rfl, fun answer' h' => by
      rw [strip, hfault] at h'
      cases h'⟩

/-- **Where a node stands that a pair was taken off** is where settling leaves what the pair held. The
answer is yes, unless that ends in a fault. -/
theorem strip_of_some (adjust : Bool) (hraw : (s.placement c).raw = some raw)
    (h : strip? raw = .ok (some inner)) :
    let a := (s.placement c).toAnchor
    let settled := s.locator.settle ⟨c.kind, (s.progress.mark c).linked && c.isIn "step"⟩ inner
      (if adjust then a.inset else a)
    (s.strip c adjust).1.placement c = { settled.anchor with raw := some settled.raw } ∧
      ∀ answer, (s.strip c adjust).2 = .ok answer → answer = true ∧ settled.fault = none := by
  intro a settled
  rcases run_of_outcome (s.locator.strip_outcome_of_some adjust hraw h) with
    ⟨answer, hanswer, rfl, hnone, hplace⟩ | ⟨fault, hfault, -, hplace⟩
  · refine ⟨hplace, fun answer' h' => ?_⟩
    rw [strip, hanswer] at h'
    exact ⟨(Except.ok.inj h').symm, hnone⟩
  · refine ⟨hplace, fun answer' h' => ?_⟩
    rw [strip, hfault] at h'
    cases h'

/-- **When a pair is taken off**: the text alone decides, and the answer tells. -/
theorem strips_iff (adjust : Bool) (hraw : (s.placement c).raw = some raw) :
    (s.Strips c adjust ↔ ∃ inner, strip? raw = .ok (some inner)) ∧
      ∀ answer, (s.strip c adjust).2 = .ok answer → (answer = true ↔ s.Strips c adjust) := by
  unfold Strips
  by_cases h : ∃ inner, strip? raw = .ok (some inner)
  · obtain ⟨inner, hinner⟩ := h
    obtain ⟨hplace, hanswer⟩ := strip_of_some adjust hraw hinner
    -- what settling leaves of the text in the pair is shorter than the text
    have hshorter : ((s.strip c adjust).1.placement c).raw ≠ (s.placement c).raw := by
      intro hsame
      rw [hplace, hraw] at hsame
      have hle := s.locator.length_settle_le ⟨c.kind, (s.progress.mark c).linked && c.isIn "step"⟩ inner
        (if adjust then (s.placement c).toAnchor.inset else (s.placement c).toAnchor)
      have hpair := length_of_strip? hinner
      rw [Option.some.inj hsame] at hle
      omega
    exact ⟨⟨fun _ => ⟨inner, hinner⟩, fun _ => hshorter⟩, fun answer h' =>
      ⟨fun _ => hshorter, fun _ => (hanswer answer h').1⟩⟩
  · have hnone : ∀ inner, strip? raw ≠ .ok (some inner) := fun inner hinner => h ⟨inner, hinner⟩
    obtain ⟨hplace, hanswer⟩ := strip_of_not_some adjust hraw hnone
    refine ⟨⟨fun hne => absurd (by rw [hplace]) hne, fun h' => absurd h' h⟩, fun answer h' => ?_⟩
    simp [hanswer answer h', hplace]

/-- **A node that pairs were taken off stands in the last of them**, if its span was a range of the source
that read its text. -/
theorem surrounded_of_strip {a b : Nat} (hab : a ≤ b) (hb : b ≤ s.locator.source.length)
    (hraw : (s.placement c).raw = some (slice s.locator.source a b))
    (hspan : (s.placement c).span = some ⟨a, b⟩) (h : s.strip c true = (s', .ok true)) :
    s'.surrounded c "(" = .ok true := by
  obtain ⟨inner, hinner⟩ : ∃ inner, strip? (slice s.locator.source a b) = .ok (some inner) := by
    have hyes : (s.strip c true).2 = .ok true := by rw [h]
    exact (strips_iff true hraw).1.1 (((strips_iff true hraw).2 true hyes).1 rfl)
  obtain ⟨length, rfl⟩ := Nat.exists_eq_add_of_le hab
  obtain ⟨hplace, -⟩ := strip_of_some true hraw hinner
  have hlocator : s'.locator = s.locator := by
    rw [← locator_run s (s.locator.strip c true)]
    exact (congrArg (·.1.locator) h).symm
  rw [h] at hplace
  -- the text stands where its span says, and what settling leaves of it stands without all of its pairs
  generalize hslice : slice s.locator.source a ((a + length : Nat) : Int) = raw at hraw hinner
  have hstands : Text.StandsAt raw s.locator.source a := by
    rw [← hslice, Int.natCast_add, slice_add]
    exact List.take_prefix _ _
  have hlength : raw.length = length := by
    rw [← hslice, Int.natCast_add, slice_add, List.length_take, List.length_drop]
    omega
  have hpair := length_of_strip? hinner
  have hinset : (s.placement c).toAnchor.inset.span =
      some ⟨(a + 1 : Nat), (a + 1 : Nat) + inner.length⟩ := by
    rw [Anchor.inset, hspan]
    simp only [Option.some.injEq, Span.mk.injEq]
    omega
  obtain ⟨inner?, hok⟩ := strip?_ok_of_some hinner
  have hinside : inner.StandsAt s.locator.source (a + 1) := hstands.inside hinner
  rw [if_pos rfl, (Locator.settle_of_standsAt hinset hinside).2 _ hok, Anchor.insetBy_inset hspan,
    ← strips_of_some hinner] at hplace
  have hmain := surrounds_insetBy hstands (by rw [strips_of_some hinner]; omega) (by omega)
  rw [hlength] at hmain
  rw [surrounded, hlocator, ← placement, hplace, Anchor.insetBy, hspan]
  rw [Int.natCast_add]
  exact hmain

end

end Session

/-- **Taking parentheses off and asking for them agree.** Parentheses stand around a span just if the text
that holds one character more at each end begins with an opening one and ends with its counterpart, which is
just when a pair is taken off a node with that text. What pairs are taken off, together with their place,
stands in the last of them. -/
theorem surrounded_iff_strips (source : Text) :
    (∀ s e : Nat, 1 ≤ s → s ≤ e → e < source.length →
      let raw := slice source ((s : Int) - 1) (e + 1)
      (Bracket.surrounds "(" (some ⟨s, e⟩) source = .ok true ↔
        raw.head? = some '(' ∧ Bracket.find "(" raw 0 = .ok ((raw.length : Int) - 1)) ∧
      ∀ (session : Session) (c : Cursor) (adjust : Bool), (session.placement c).raw = some raw →
        (Bracket.surrounds "(" (some ⟨s, e⟩) source = .ok true ↔ session.Strips c adjust) ∧
        ∀ answer, (session.strip c adjust).2 = .ok answer →
          (answer = true ↔ session.Strips c adjust)) ∧
    ∀ (session session' : Session) (c : Cursor) (a b : Nat), session.locator.source = source →
      a ≤ b → b ≤ source.length → (session.placement c).span = some ⟨a, b⟩ →
      (session.placement c).raw = some (slice source a b) →
      session.strip c true = (session', .ok true) → session'.surrounded c "(" = .ok true := by
  refine ⟨fun s e hs hse he => ?_, ?_⟩
  · intro raw
    have hagree := surrounds_iff_strip? hs hse he
    refine ⟨hagree.trans exists_strip?_iff, fun session c adjust hraw => ?_⟩
    obtain ⟨hstrips, hanswer⟩ := Session.strips_iff adjust hraw
    exact ⟨hagree.trans hstrips.symm, hanswer⟩
  · rintro session session' c a b rfl hab hb hspan hraw h
    exact Session.surrounded_of_strip hab hb hraw hspan h

/-- The argument of the call `f((a))`, reported with both pairs of parentheses, stands in the inner one. -/
theorem surrounded_iff_strips_argument :
    let source := ['f', '(', '(', 'a', ')', ')']
    let c := Cursor.root (.mk "Identifier" { raw := some ['(', '(', 'a', ')', ')'], span := some ⟨1, 6⟩ } [])
    let session : Session := ⟨.ofSource source .standard, c.node, {}⟩
    Bracket.surrounds "(" (some ⟨2, 5⟩) source = .ok true ∧ session.Strips c true ∧
      ∃ session', session.strip c true = (session', .ok true) ∧ session'.surrounded c "(" = .ok true := by
  intro source c session
  obtain ⟨hspan, hnode⟩ := surrounded_iff_strips source
  obtain ⟨hagree, hstrips⟩ := hspan 2 5 (by decide) (by decide) (by decide)
  have hsurrounds := hagree.2 ⟨by decide, by rfl⟩
  have hstrip : session.strip c true = ((session.strip c true).1, .ok true) := by
    have hyes : (session.strip c true).2 = .ok true := by decide +kernel
    rw [← hyes]
  exact ⟨hsurrounds, (hstrips session c true (by rfl)).1.1 hsurrounds, _, hstrip,
    hnode session _ c 1 6 rfl (by decide) (by decide) rfl (by rfl) hstrip⟩

end SyntaxSpans
