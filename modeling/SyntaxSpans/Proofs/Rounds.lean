import SyntaxSpans.Proofs.Journaling

/-!
# The rounds of a resolution

The resolver once more, as functions that call each other and keep a journal: `attend` begins with a node,
`round` finds its place, `find` looks for its text, `peel` takes a pair of parentheses off it and goes back
to `round`, and `climb` takes the operators first that the node begins with. Nothing in these functions says
that they come to an end: they are the least solution of their equations, and a run that does not end has
no result.

They follow the resolver, at one node by induction on its text (`follows_settle`) and from node to node by
induction on the tree (`follows_resolve`).
-/

namespace SyntaxSpans

/-! ## The resolver with a journal -/

namespace Locator

open Journaling Resolving

def seek (l : Locator) (c : Cursor) : Resolving Unit := do
  let p ← placement c
  match p.raw with
  | none => pure ()
  | some raw =>
    match l.search raw p.toAnchor with
    | .error fault => throw fault
    | .ok a => place c { a with raw := some raw }

/-- Whether a node stands where its span is. -/
def stands (l : Locator) (c : Cursor) : Resolving Bool := do
  let p ← placement c
  return p.raw.any fun raw => l.reads p.span raw

mutual

def attend (l : Locator) (c : Cursor) : Journaling Progress Unit := do
  if (← quietly (mark c)).resolved then pure ()
  else
    entering (markResolved c) fun p => .first c.path (p.mark c).placement.raw
    l |>.round c
partial_fixpoint

def round (l : Locator) (c : Cursor) : Journaling Progress Unit := do
  let p ← quietly (placement c)
  if p.span.isNone && c.kind == "ConcatOp" then quietly (record .skippedConcatenation)
  else
    match p.raw with
    | some _ => l |>.find c
    | none =>
      if ← quietly (heldBy c "While" "condition") then quietly (record (.skippedCondition p.line))
      else if c.kind == "LogicalNotOp" && (← quietly (heldBy c "Conditional" "condition")) then
        match c.child? "expression" with
        | none => quietly (throw (.missingOperand "expression"))
        | some d =>
          l |>.supply d
          let q ← quietly (placement d)
          match q.raw with
          | none => quietly (gap c .operandWithoutText)
          | some raw =>
            entering (place c q) fun _ => .given c.path raw
            l |>.find c
      else
        match c.child? "left", c.child? "right" with
        | some left, some right =>
          l |>.climb c
          l |>.supply left
          l |>.supply right
          let p ← quietly (placement left)
          let q ← quietly (placement right)
          match p.span, q.span with
          | some first, some last =>
            let span : Span := ⟨first.start, last.stop⟩
            let raw := span.read l.source
            entering (place c { p with raw := some raw, span := some span }) fun _ =>
              .given c.path raw
            l |>.find c
          | _, _ => quietly (gap c .operandWithoutSpan)
        | _, _ => quietly (gap c .noText)
partial_fixpoint

def find (l : Locator) (c : Cursor) : Journaling Progress Unit := do
  quietly (l.seek c)
  if ← quietly (l.stands c) then
    let _ ← l |>.peel c true
    pure ()
  else if ← quietly (heldAs c "step") then
    let p ← quietly (placement c)
    quietly (record (.ignoredStep p.line p.column))
  else if ← (l |>.peel c false) then pure ()
  else quietly (gap c .misplaced)
partial_fixpoint

/-- Strips one pair of parentheses off a node, takes them off its span too when `adjust` is set, and
finds its place anew. Answers whether there was a pair. -/
def peel (l : Locator) (c : Cursor) (adjust : Bool) : Journaling Progress Bool := do
  let p ← quietly (placement c)
  match p.raw with
  | none => return false
  | some raw =>
    match strip? raw with
    | .error e => quietly (throw (.bracket e))
    | .ok none => return false
    | .ok (some inner) =>
      let a := if adjust then p.toAnchor.inset else p.toAnchor
      entering (place c { a with raw := some inner }) fun _ => .again c.path inner
      quietly (record (.stripped c.kind inner))
      l |>.round c
      return true
partial_fixpoint

def supply (l : Locator) (c : Cursor) : Journaling Progress Unit := do
  quietly (link c)
  l |>.attend c
partial_fixpoint

/-- Deals with the operators without text that a node begins with, the innermost first. -/
def climb (l : Locator) (c : Cursor) : Journaling Progress Unit := do
  match c.child? "left" with
  | none => pure ()
  | some left =>
    let m ← quietly (mark left)
    if m.placement.raw.isNone && !m.resolved && (left.child? "right").isSome then
      entering (link left) fun _ => .chained left.path
      l |>.climb left
      l |>.attend left
    else pure ()
partial_fixpoint

end

end Locator

/-! ## Moves of one node -/

namespace Progress

/-- Only the place of `c` has changed, to `q`, and records have been made. -/
structure Moves (r c : Cursor) (q : Placement) (records : List Record) (p p' : Progress) : Prop where
  marks : ∀ d, r.Contains d →
    p'.mark d = if d.path = c.path then { p.mark d with placement := q } else p.mark d
  log : p'.log = p.log ++ records

section
variable {r c : Cursor} {q q' : Placement} {records more : List Record} {p p' p'' t t' : Progress}

theorem Moves.refl (hc : r.Contains c) (h : (p.mark c).placement = q) : Moves r c q [] p p := by
  refine ⟨fun d hd => ?_, (List.append_nil _).symm⟩
  split
  · next heq => rw [hd.eq_of_path hc heq, ← h]
  · rfl

theorem Moves.place (hc : r.Contains c) (q : Placement) :
    Moves r c q [] p (p.setMark c { p.mark c with placement := q }) :=
  ⟨fun _ hd => mark_update hc hd p fun m => { m with placement := q }, (List.append_nil _).symm⟩

theorem Moves.trans (h : Moves r c q records p p') (h' : Moves r c q' more p' p'') :
    Moves r c q' (records ++ more) p p'' := by
  refine ⟨fun d hd => ?_, by rw [h'.log, h.log, List.append_assoc]⟩
  rw [h'.marks d hd, h.marks d hd]
  split <;> rfl

theorem Moves.record (h : Moves r c q records p p') (more : List Record) :
    Moves r c q (records ++ more) p (p'.record more) :=
  ⟨h.marks, by rw [(changes_record (r := r) more).log, h.log, List.append_assoc]⟩

theorem Moves.alike (h : Moves r c q records p p') (halike : Alike r p t)
    (h' : Moves r c q records t t') : Alike r p' t' := by
  refine ⟨fun d hd => ?_, by rw [h.log, h'.log, halike.log]⟩
  rw [h.marks d hd, h'.marks d hd, halike.marks d hd]

theorem Moves.mark (hc : r.Contains c) (h : Moves r c q records p p') :
    p'.mark c = { p.mark c with placement := q } := by
  rw [h.marks c hc, if_pos rfl]

theorem Moves.holds (hc : r.Contains c) (h : Moves r c q records p p')
    (hraw : q.raw = (p.mark c).placement.raw) : Holds r p p' := by
  intro d hd
  unfold status
  rw [h.marks d hd]
  split
  · next heq => rw [hd.eq_of_path hc heq, hraw]
  · rfl

end

end Progress

/-- The end of a resolution in which a node has been settled. -/
def Settled.finish (s : Settled) (c : Cursor) (p : Progress) : EStateM.Result Fault Progress Unit :=
  let p' := (p.setMark c
    { p.mark c with placement := { s.anchor with raw := some s.raw } }).record s.records
  match s.fault with
  | some fault => .error fault p'
  | none => .ok () p'

namespace Locator

open Resolving Journaling Progress

section
variable {l : Locator} {r c : Cursor} {bound : Nat} {p p' q : Progress} {raw inner : Text}
  {a a' : Anchor} {role : Role} {out : EStateM.Result Fault Progress Unit}
  {post : Unit → Progress → Prop}

theorem settleAt_apply (l : Locator) (c : Cursor) (raw : Text) (p : Progress) :
    l.settleAt c raw p =
      (l.settle ⟨c.kind, (p.mark c).linked && c.isIn "step"⟩ raw (p.mark c).placement.toAnchor).finish
        c p := by
  refine eq_of_outcome (outcome_settleAt.2 ?_)
  dsimp only
  generalize l.settle _ raw _ = s
  rw [Settled.finish]
  cases s.fault <;> rfl

/-- What is done once the text of a node has been looked for. -/
def afterSearch (l : Locator) (c : Cursor) (found : Bool) : Journaling Progress Unit := do
  if found then
    let _ ← l.peel c true
    pure ()
  else if ← quietly (heldAs c "step") then
    let p ← quietly (placement c)
    quietly (record (.ignoredStep p.line p.column))
  else if ← l.peel c false then pure ()
  else quietly (gap c .misplaced)

theorem find_eq (l : Locator) (c : Cursor) : l.find c = (do
    quietly (l.seek c)
    let found ← quietly (l.stands c)
    l.afterSearch c found) := by
  rw [find]
  rfl

/-- A node that has a text has it looked for. -/
theorem round_apply (hraw : (p.mark c).placement.raw = some raw)
    (hskip : ¬ ((p.mark c).placement.span.isNone && c.kind == "ConcatOp") = true)
    (journal : List Entry) : l.round c (p, journal) = l.find c (p, journal) := by
  rw [round, Journaling.bind_apply]
  change (if ((p.mark c).placement.span.isNone && c.kind == "ConcatOp") = true then _ else _ :
    Journaling Progress Unit) (p, journal) = _
  rw [if_neg hskip, hraw]

theorem follows_find (hplace : (p.mark c).placement = { a with raw := some raw })
    (hskip : ¬ (a.span.isNone && c.kind == "ConcatOp") = true)
    (h : Follows .whole r bound (l.find c) p out post) :
    Follows .whole r bound (l.round c) p out post := by
  refine h.congr_step fun journal => (round_apply (by rw [hplace]) ?_ journal).symm
  rwa [hplace]

theorem seek_ok (hplace : (p.mark c).placement = { a with raw := some raw })
    (hsearch : l.search raw a = .ok a') :
    l.seek c p =
      .ok () (p.setMark c { p.mark c with placement := { a' with raw := some raw } }) := by
  refine eq_of_outcome ?_
  rw [seek, outcome_bind, outcome_placement, hplace]
  simp [hsearch]

theorem seek_error {e : Fault} (hplace : (p.mark c).placement = { a with raw := some raw })
    (hsearch : l.search raw a = .error e) : l.seek c p = .error e p := by
  refine eq_of_outcome ?_
  rw [seek, outcome_bind, outcome_placement, hplace]
  simp [hsearch]

theorem stands_apply (hplace : (p.mark c).placement = { a with raw := some raw }) :
    l.stands c p = .ok (l.reads a.span raw) p := by
  refine eq_of_outcome ?_
  rw [stands, outcome_bind, outcome_placement, hplace]
  simp

/-- The text of a node has been looked for, and its anchor moved accordingly. -/
theorem follows_round_of_search (hc : r.Contains c)
    (hplace : (p.mark c).placement = { a with raw := some raw })
    (hskip : ¬ (a.span.isNone && c.kind == "ConcatOp") = true) (hsearch : l.search raw a = .ok a')
    (h : ∀ p', Moves r c { a' with raw := some raw } [] p p' →
      Follows .whole r bound (l.afterSearch c (l.reads a'.span raw)) p' out post) :
    Follows .whole r bound (l.round c) p out post := by
  refine follows_find hplace hskip ?_
  have hmoves := Moves.place (p := p) hc { a' with raw := some raw }
  have hraw : (p.mark c).placement.raw = some raw := by rw [hplace]
  rw [find_eq]
  refine .quiet (seek_ok hplace hsearch) (hmoves.holds hc hraw.symm) ?_
  exact .quiet (stands_apply (by rw [hmoves.mark hc])) (fun _ _ => rfl) (h _ hmoves)

/-- A text that is not found may have parentheses around it, except in a `step`. -/
theorem follows_round_of_not_reads (hc : r.Contains c)
    (hplace : (p.mark c).placement = { a with raw := some raw })
    (hskip : ¬ (a.span.isNone && c.kind == "ConcatOp") = true) (hsearch : l.search raw a = .ok a')
    (hreads : ¬ l.reads a'.span raw = true) (hstep : ¬ ((p.mark c).linked && c.isIn "step") = true)
    (h : ∀ p', Moves r c { a' with raw := some raw } [] p p' →
      Follows .whole r bound (do
        if ← l.peel c false then pure ()
        else quietly (gap c .misplaced)) p' out post) :
    Follows .whole r bound (l.round c) p out post := by
  refine follows_round_of_search hc hplace hskip hsearch fun p' hmoves => ?_
  rw [Bool.eq_false_iff.2 hreads, afterSearch, if_neg Bool.false_ne_true]
  refine .quiet rfl (fun _ _ => rfl) ?_
  simp only [hmoves.mark hc]
  rw [if_neg hstep]
  exact h p' hmoves

section
variable {f : Bool → Journaling Progress Unit} {adjust : Bool}

theorem follows_peel_none (hplace : (p.mark c).placement = { a with raw := some raw })
    (hstrip : strip? raw = .ok none) (h : Follows .whole r bound (f false) p out post) :
    Follows .whole r bound (l.peel c adjust >>= f) p out post := by
  rw [peel, bind_assoc]
  refine .quiet rfl (fun _ _ => rfl) ?_
  simp only [hplace, hstrip, pure_bind]
  exact h

theorem follows_peel_error {e : Bracket.Error} {t : Progress}
    (hplace : (p.mark c).placement = { a with raw := some raw })
    (hstrip : strip? raw = .error e) (halike : Alike r p t) :
    Follows .whole r bound (l.peel c adjust >>= f) p (.error (.bracket e) t) post := by
  rw [peel, bind_assoc]
  refine .quiet rfl (fun _ _ => rfl) ?_
  simp only [hplace, hstrip]
  exact .fault rfl ⟨halike, rfl⟩ fun _ _ => rfl

/-- A pair of parentheses is stripped, and what is left gets a round of its own. -/
theorem follows_peel_some (hc : r.Contains c) (hres : (p.mark c).resolved = true)
    (hplace : (p.mark c).placement = { a with raw := some raw })
    (hstrip : strip? raw = .ok (some inner)) (hf : f true = pure ())
    (h : ∀ p', Moves r c { (if adjust then a.inset else a) with raw := some inner }
        [.stripped c.kind inner] p p' →
      Follows .whole r (2 * c.path.length + 1) (l.round c) p' out post) :
    Follows .whole r (2 * c.path.length + 1) (l.peel c adjust >>= f) p out post := by
  rw [peel, bind_assoc]
  refine .quiet rfl (fun _ _ => rfl) ?_
  simp only [hplace, hstrip, bind_assoc, pure_bind, hf, bind_pure_unit]
  have hlength := length_of_strip? hstrip
  have hstatus : p.status c = ⟨true, some raw⟩ := by rw [status, hres, hplace]
  refine .enter rfl (.again hc hstatus rfl hlength) (by simp) ?_
  exact .quiet rfl (fun _ _ => rfl) (h _ ((Moves.place hc _).record [_]))

end

end

end Locator

/-! ## A node whose text is known -/

namespace Locator

open Resolving Journaling Progress

section
variable {l : Locator} {r c : Cursor} {p p' : Progress} {raw inner : Text} {a : Anchor}
  {s : Settled} {linked : Bool}

theorem moves_finish (hc : r.Contains c) (s : Settled) (p : Progress) :
    Moves r c { s.anchor with raw := some s.raw } s.records p (final (s.finish c p)) := by
  have h := (Moves.place (p := p) hc { s.anchor with raw := some s.raw }).record s.records
  rw [Settled.finish]
  split <;> exact h

theorem answer_finish (s : Settled) (p : Progress) :
    answer (s.finish c p) = match s.fault with
      | some fault => .error fault
      | none => .ok () := by
  rw [Settled.finish]
  split <;> simp_all [answer]

theorem alike_finish (hc : r.Contains c)
    (h : Moves r c { s.anchor with raw := some s.raw } s.records p p') :
    View.whole.Alike r p' (final (s.finish c p)) :=
  ⟨h.alike .refl (moves_finish hc s p), rfl⟩

/-- After a strip, what is left is settled as before. -/
theorem follows_stripped {f : Bool → Journaling Progress Unit} {adjust : Bool} (hc : r.Contains c)
    (hmoves : Moves r c { a with raw := some raw } [] p p')
    (hmark : p'.mark c = ⟨{ a with raw := some raw }, linked, true⟩)
    (hstrip : strip? raw = .ok (some inner)) (hf : f true = pure ())
    (h : ∀ t : Progress,
      t.mark c = ⟨{ (if adjust then a.inset else a) with raw := some inner }, linked, true⟩ →
      Follows .whole r (2 * c.path.length + 1) (l.round c) t (s.finish c t) fun _ _ => True) :
    Follows .whole r (2 * c.path.length + 1) (l.peel c adjust >>= f) p'
      ((s.after (.stripped c.kind inner)).finish c p) fun _ _ => True := by
  refine follows_peel_some hc (by rw [hmark]) (by rw [hmark]) hstrip hf fun t ht => ?_
  have hanswer : answer ((s.after (.stripped c.kind inner)).finish c p) = answer (s.finish c t) := by
    rw [answer_finish, answer_finish]
    rfl
  refine (h t (by rw [ht.mark hc, hmark])).congr_out hanswer (alike_finish hc ?_).1
  exact (hmoves.trans ht).trans (moves_finish hc s t)

/-- **A node whose text is known** is settled: its rounds end, since each strip leaves a shorter text. -/
theorem follows_settle (hc : r.Contains c)
    (hmark : p.mark c = ⟨{ a with raw := some raw }, linked, true⟩) :
    Follows .whole r (2 * c.path.length + 1) (l.round c) p
      ((l.settle ⟨c.kind, linked && c.isIn "step"⟩ raw a).finish c p) fun _ _ => True := by
  -- the induction is that of settling, on the length of the text; only the strips go back to a round
  fun_induction l.settle ⟨c.kind, linked && c.isIn "step"⟩ raw a generalizing p with
  | case1 raw a hskip =>
    have halike := alike_finish (s := ⟨raw, a, [.skippedConcatenation], none⟩) hc
      ((Moves.refl hc (by rw [hmark])).record [.skippedConcatenation])
    rw [round]
    refine .quiet rfl (fun _ _ => rfl) ?_
    simp only [hmark]
    rw [if_pos hskip]
    exact .last rfl halike (fun _ _ => rfl) trivial
  | case2 raw a hskip fault hsearch =>
    have halike := alike_finish (s := ⟨raw, a, [], some fault⟩) hc (.refl hc (by rw [hmark]))
    refine follows_find (by rw [hmark]) hskip ?_
    rw [find_eq]
    exact .fault (seek_error (by rw [hmark]) hsearch) halike fun _ _ => rfl
  | case3 raw a hskip a' hsearch hreads e hstrip =>
    refine follows_round_of_search hc (by rw [hmark]) hskip hsearch fun p' hmoves => ?_
    have halike := alike_finish (s := ⟨raw, a', [], some (.bracket e)⟩) hc hmoves
    rw [hreads, afterSearch, if_pos rfl]
    exact follows_peel_error (by rw [hmoves.mark hc]) hstrip halike.1
  | case4 raw a hskip a' hsearch hreads hstrip =>
    refine follows_round_of_search hc (by rw [hmark]) hskip hsearch fun p' hmoves => ?_
    have halike := alike_finish (s := ⟨raw, a', [], none⟩) hc hmoves
    rw [hreads, afterSearch, if_pos rfl]
    exact follows_peel_none (by rw [hmoves.mark hc]) hstrip (.pure halike trivial)
  | case5 raw a hskip a' hsearch hreads inner hstrip ih =>
    refine follows_round_of_search hc (by rw [hmark]) hskip hsearch fun p' hmoves => ?_
    rw [hreads, afterSearch, if_pos rfl]
    exact follows_stripped hc hmoves (by rw [hmoves.mark hc, hmark]) hstrip rfl fun t ht => ih ht
  | case6 raw a hskip a' hsearch hreads hstep =>
    refine follows_round_of_search hc (by rw [hmark]) hskip hsearch fun p' hmoves => ?_
    have halike := alike_finish (s := ⟨raw, a', [.ignoredStep a'.line a'.column], none⟩) hc
      (hmoves.record [.ignoredStep a'.line a'.column])
    have hmark' := hmoves.mark hc
    rw [Bool.eq_false_iff.2 hreads, afterSearch, if_neg Bool.false_ne_true]
    refine .quiet rfl (fun _ _ => rfl) ?_
    simp only [hmark', hmark]
    rw [if_pos hstep]
    refine .quiet rfl (fun _ _ => rfl) ?_
    simp only [hmark']
    exact .last rfl halike (fun _ _ => rfl) trivial
  | case7 raw a hskip a' hsearch hreads hstep e hstrip =>
    refine follows_round_of_not_reads hc (by rw [hmark]) hskip hsearch hreads (by rwa [hmark])
      fun p' hmoves => ?_
    have halike := alike_finish (s := ⟨raw, a', [], some (.bracket e)⟩) hc hmoves
    exact follows_peel_error (by rw [hmoves.mark hc]) hstrip halike.1
  | case8 raw a hskip a' hsearch hreads hstep hstrip =>
    refine follows_round_of_not_reads hc (by rw [hmark]) hskip hsearch hreads (by rwa [hmark])
      fun p' hmoves => ?_
    have hmark' := hmoves.mark hc
    have halike := alike_finish
      (s := ⟨raw, a', [], some (.gap .misplaced c.kind a'.line a'.column)⟩) hc hmoves
    have hgap : gap c .misplaced p' = .error (.gap .misplaced c.kind a'.line a'.column) p' := by
      refine eq_of_outcome ?_
      rw [outcome_gap, hmark']
    refine follows_peel_none (by rw [hmark']) hstrip ?_
    rw [if_neg Bool.false_ne_true]
    exact .last_fault hgap halike fun _ _ => rfl
  | case9 raw a hskip a' hsearch hreads hstep inner hstrip ih =>
    refine follows_round_of_not_reads hc (by rw [hmark]) hskip hsearch hreads (by rwa [hmark])
      fun p' hmoves => ?_
    exact follows_stripped hc hmoves (by rw [hmoves.mark hc, hmark]) hstrip rfl fun t ht => ih ht

end

end Locator

/-! ## The resolver with a journal beside the one without -/

namespace Locator

open Resolving Journaling Progress

section
variable {l : Locator} {r c : Cursor} {p q : Progress} {raw : Text}

theorem follows_settleAt (hc : r.Contains c) (h : Alike r p q) (hres : (p.mark c).resolved = true)
    (hraw : (p.mark c).placement.raw = some raw) :
    Follows .whole r (2 * c.path.length + 1) (l.round c) p (l.settleAt c raw q) fun _ _ => True := by
  have hmark : p.mark c =
      ⟨{ (p.mark c).placement.toAnchor with raw := some raw }, (p.mark c).linked, true⟩ := by
    rw [← hraw, ← hres]
  have hround := follows_settle (l := l) hc hmark
  rw [settleAt_apply, ← h.marks c hc]
  generalize l.settle _ raw _ = s at hround ⊢
  refine hround.congr_out (by rw [answer_finish, answer_finish]) ?_
  exact (moves_finish hc s p).alike h (moves_finish hc s q)

/-- A node that has just got a text is settled too. -/
theorem follows_find_of_given (hc : r.Contains c) (h : Alike r p q)
    (hres : (p.mark c).resolved = true) (hraw : (p.mark c).placement.raw = some raw)
    (hskip : ¬ ((p.mark c).placement.span.isNone && c.kind == "ConcatOp") = true) :
    Follows .whole r (2 * c.path.length + 1) (l.find c) p (l.settleAt c raw q) fun _ _ => True :=
  (follows_settleAt hc h hres hraw).congr_step (round_apply hraw hskip)

/-- A node that gets its text from its operands is settled with it. -/
theorem follows_given {placement : Placement} (hc : r.Contains c) (h : Alike r p q)
    (hstatus : p.status c = ⟨true, none⟩) (hraw : placement.raw = some raw)
    (hskip : ¬ (placement.span.isNone && c.kind == "ConcatOp") = true) :
    Follows .whole r (2 * c.path.length + 1)
      (do
        entering (place c placement) fun _ => .given c.path raw
        l.find c) p
      ((do
        place c placement
        l.settleAt c raw : Resolving Unit) q) fun _ _ => True := by
  obtain ⟨hres, -⟩ := Status.mk.inj hstatus
  have hmark := (Moves.place (p := p) hc placement).mark hc
  rw [bind_of_ok (x := place c placement) rfl]
  refine .enter rfl (.given hc hstatus hraw) (by simp) (follows_find_of_given hc ?_ ?_ ?_ ?_)
  · exact h.update hc fun m => { m with placement }
  · rw [hmark, hres]
  · rw [hmark, hraw]
  · rwa [hmark]

theorem follows_gap {bound : Nat} {post : Unit → Progress → Prop} (hc : r.Contains c)
    (h : Alike r p q) (cause : Gap) :
    Follows .whole r bound (quietly (gap c cause)) p (gap c cause q) post := by
  have hgap : ∀ p : Progress, gap c cause p = .error
      (.gap cause c.kind (p.mark c).placement.line (p.mark c).placement.column) p := fun p =>
    eq_of_outcome (outcome_gap.2 rfl)
  rw [hgap q, ← h.marks c hc]
  exact .last_fault (hgap p) ⟨h, rfl⟩ fun _ _ => rfl

/-- A negation goes as without a journal if its operand does. -/
theorem follows_negation {d : Cursor} (hc : r.Contains c) (h : Alike r p q)
    (hstatus : p.status c = ⟨true, none⟩) (hkind : c.kind = "LogicalNotOp")
    (hchild : c.child? "expression" = some d)
    (hsupply : ∀ p q : Progress, Alike r p q →
      Follows .whole r (2 * d.path.length + 1) (l.supply d) p (l.resolveOperand d q)
        fun _ _ => True) :
    Follows .whole r (2 * c.path.length + 1)
      (do
        l.supply d
        let q ← quietly (placement d)
        match q.raw with
        | none => quietly (gap c .operandWithoutText)
        | some raw =>
          entering (place c q) fun _ => .given c.path raw
          l.find c) p
      (l.locateNegation l.resolveOperand c d q) fun _ _ => True := by
  have hlength : d.path.length = c.path.length + 1 := by
    rw [Cursor.path_of_child? hchild, List.length_cons]
  rw [locateNegation]
  refine (hsupply p q h).next (by omega) fun _ p₁ q₁ new _ hnew h₁ => ?_
  have hstatus₁ : p₁.status c = ⟨true, none⟩ := (hnew.status_eq hc (by omega)).trans hstatus
  refine .step rfl rfl (fun _ _ => rfl) ?_
  rw [← h₁.marks d (hc.child hchild)]
  cases hraw : (p₁.mark d).placement.raw with
  | none => exact follows_gap hc h₁ _
  | some raw => exact follows_given hc h₁ hstatus₁ hraw (by simp [hkind])

/-- An operator goes as without a journal if its chain and its operands do. -/
theorem follows_operator {left right : Cursor} (hc : r.Contains c)
    (hstatus : p.status c = ⟨true, none⟩)
    (hleft : c.child? "left" = some left) (hright : c.child? "right" = some right)
    (hclimb : Follows .whole r (2 * c.path.length + 2) (l.climb c) p (l.resolveSpine c q)
      fun _ _ => True)
    (hsupply : ∀ name d, c.child? name = some d → ∀ p q : Progress, Alike r p q →
      Follows .whole r (2 * d.path.length + 1) (l.supply d) p (l.resolveOperand d q)
        fun _ _ => True) :
    Follows .whole r (2 * c.path.length + 1)
      (do
        l.climb c
        l.supply left
        l.supply right
        let p ← quietly (placement left)
        let q ← quietly (placement right)
        match p.span, q.span with
        | some first, some last =>
          let span : Span := ⟨first.start, last.stop⟩
          let raw := span.read l.source
          entering (place c { p with raw := some raw, span := some span }) fun _ =>
            .given c.path raw
          l.find c
        | _, _ => quietly (gap c .operandWithoutSpan)) p
      (l.locateOperator (l.resolveSpine c) l.resolveOperand c left right q) fun _ _ => True := by
  have hlengthLeft : left.path.length = c.path.length + 1 := by
    rw [Cursor.path_of_child? hleft, List.length_cons]
  have hlengthRight : right.path.length = c.path.length + 1 := by
    rw [Cursor.path_of_child? hright, List.length_cons]
  rw [locateOperator]
  refine hclimb.next (by omega) fun _ p₁ q₁ new₁ _ hnew₁ h₁ => ?_
  refine (hsupply _ _ hleft p₁ q₁ h₁).next (by omega) fun _ p₂ q₂ new₂ _ hnew₂ h₂ => ?_
  refine (hsupply _ _ hright p₂ q₂ h₂).next (by omega) fun _ p₃ q₃ new₃ _ hnew₃ h₃ => ?_
  -- none of the three has had an entry about the operator itself, which stands further up
  have hstatus₃ : p₃.status c = ⟨true, none⟩ := by
    rw [hnew₃.status_eq hc (by omega), hnew₂.status_eq hc (by omega),
      hnew₁.status_eq hc (by omega), hstatus]
  rw [spanOperands]
  refine .step rfl rfl (fun _ _ => rfl) (.step rfl rfl (fun _ _ => rfl) ?_)
  rw [← h₃.marks left (hc.child hleft), ← h₃.marks right (hc.child hright)]
  cases hfirst : (p₃.mark left).placement.span with
  | none => exact follows_gap hc h₃ _
  | some first =>
    cases hlast : (p₃.mark right).placement.span with
    | none => exact follows_gap hc h₃ _
    | some last =>
      refine follows_given hc h₃ hstatus₃ ?_ ?_
      · rfl
      · simp

/-- **A round of a node** goes as finding its place does, if its chain and its operands go as theirs. -/
theorem follows_locate (hc : r.Contains c) (h : Alike r p q) (hres : (p.mark c).resolved = true)
    (hclimb : ∀ p q : Progress, Alike r p q →
      Follows .whole r (2 * c.path.length + 2) (l.climb c) p (l.resolveSpine c q) fun _ _ => True)
    (hsupply : ∀ name d, c.child? name = some d → ∀ p q : Progress, Alike r p q →
      Follows .whole r (2 * d.path.length + 1) (l.supply d) p (l.resolveOperand d q)
        fun _ _ => True) :
    Follows .whole r (2 * c.path.length + 1) (l.round c) p (l.locate c q) fun _ _ => True := by
  rw [locate_eq, locateBy]
  have hmark := h.marks c hc
  cases hraw : (p.mark c).placement.raw with
  | some raw =>
    have hsettle := follows_settleAt (l := l) hc h hres hraw
    rwa [bind_of_ok (x := placement c) rfl, ← hmark, hraw]
  | none =>
    have hstatus : p.status c = ⟨true, none⟩ := by rw [status, hres, hraw]
    rw [round]
    refine .step rfl rfl (fun _ _ => rfl) ?_
    rw [← hmark]
    simp -zeta only [hraw]
    -- both go through the same tests, since the marks of the node are the same
    split
    · exact .last rfl ⟨h.record [_], rfl⟩ (fun _ _ => rfl) trivial
    · refine .step rfl rfl (fun _ _ => rfl) ?_
      rw [← hmark]
      split
      · exact .last rfl ⟨h.record [_], rfl⟩ (fun _ _ => rfl) trivial
      · refine .step rfl rfl (fun _ _ => rfl) ?_
        rw [← hmark]
        split
        · next hnegated =>
          simp only [Bool.and_eq_true, beq_iff_eq] at hnegated
          cases hchild : c.child? "expression" with
          | none => exact .last_fault rfl ⟨h, rfl⟩ fun _ _ => rfl
          | some d => exact follows_negation hc h hstatus hnegated.1 hchild (hsupply _ d hchild)
        · cases hleft : c.child? "left" with
          | none => exact follows_gap hc h _
          | some left =>
            cases hright : c.child? "right" with
            | none => exact follows_gap hc h _
            | some right => exact follows_operator hc hstatus hleft hright (hclimb p q h) hsupply

-- The induction is on the tree below the node. At one node, supplying it leads to dealing with it, and that
-- to its chain; the operands and the rest of the chain are smaller trees.
mutual

/-- **Dealing with a node** ends as resolving it does, and enters what the rules allow. -/
theorem follows_resolve {c : Cursor} {p q : Progress} (hc : r.Contains c) (h : Alike r p q) :
    Follows .whole r (2 * c.path.length + 1) (l.attend c) p (l.resolve c q)
      fun _ p' => (p'.mark c).resolved = true := by
  rw [attend, resolve_eq, once]
  refine .step rfl rfl (fun _ _ => rfl) ?_
  rw [← h.marks c hc]
  split
  · next hres => exact .pure ⟨h, rfl⟩ hres
  · next hres =>
    have hmark : ((p.setMark c { p.mark c with resolved := true }).mark c).resolved = true := by
      rw [mark_setMark_self]
    have hround := follows_locate (l := l) hc (h.update hc fun m => { m with resolved := true }) hmark
      (fun p q h => follows_resolveSpine hc h) fun name d hchild p q h => by
        have := Cursor.sizeOf_child?_lt hchild
        exact follows_resolveOperand (hc.child hchild) h
    rw [bind_of_ok (x := markResolved c) rfl]
    refine .enter rfl (.first hc (Bool.eq_false_iff.2 hres) rfl) (by simp) ?_
    exact hround.entered.mono (Nat.le_refl _) fun _ _ ⟨_, _, hnew⟩ => hnew.resolved hc hmark
termination_by (sizeOf c.node, 1)

theorem follows_resolveOperand {c : Cursor} {p q : Progress} (hc : r.Contains c)
    (h : Alike r p q) :
    Follows .whole r (2 * c.path.length + 1) (l.supply c) p (l.resolveOperand c q)
      fun _ _ => True := by
  rw [supply, resolveOperand]
  refine .step rfl rfl (.link hc) ?_
  exact (follows_resolve hc (h.link hc)).mono (Nat.le_refl _) fun _ _ _ => trivial
termination_by (sizeOf c.node, 2)

theorem follows_resolveSpine {c : Cursor} {p q : Progress} (hc : r.Contains c) (h : Alike r p q) :
    Follows .whole r (2 * c.path.length + 2) (l.climb c) p (l.resolveSpine c q)
      fun _ _ => True := by
  rw [climb, resolveSpine]
  cases hchild : c.child? "left" with
  | none => exact .pure ⟨h, rfl⟩ trivial
  | some left =>
    have hl := hc.child hchild
    have hlevel : 2 * c.path.length + 2 = 2 * left.path.length := by
      rw [Cursor.path_of_child? hchild, List.length_cons]
      omega
    have := Cursor.sizeOf_child?_lt hchild
    rw [hlevel]
    refine .step rfl rfl (fun _ _ => rfl) ?_
    rw [← h.marks left hl]
    split
    · next hcond =>
      simp only [Bool.and_eq_true, Bool.not_eq_true'] at hcond
      rw [bind_of_ok (x := link left) rfl]
      refine .chained hl hcond.1.2 rfl (.link hl) ?_
      exact (follows_resolveSpine hl (h.link hl)).next (by omega) fun _ p' q' _ _ _ h' =>
        follows_resolve hl h'
    · exact .pure ⟨h, rfl⟩ trivial
termination_by (sizeOf c.node, 0)

end

end

end Locator

end SyntaxSpans
