import SyntaxSpans.Fault
import SyntaxSpans.Position

/-!
# Settling a node whose text is known

A parser may report a position a few characters late, and it may count parentheses around a node to
the node. Settling searches the text backwards from the reported position, strips parentheses that
wrap all of it, and begins again with the stripped text until there are none left.

Each strip takes two characters off the text, so settling ends. What is changed before a fault stays
changed; the outcome says so by holding both.
-/

namespace SyntaxSpans

/-- How many offsets the search tries: the reported one and those before it. -/
structure Window where
  size : Nat
  size_pos : 0 < size
deriving DecidableEq

namespace Window

def standard : Window := ⟨3, by decide⟩

def ofInt? (n : Int) : Option Window :=
  if h : 0 < n.toNat then some ⟨n.toNat, h⟩ else none

def refusal (n : Int) : String := "search_window must be at least 1, got " ++ toString n

end Window

/-- What nodes are placed against. The lines may be those of another text than the source. -/
structure Locator where
  source : Text
  lines : LineMap
  window : Window

namespace Locator

def ofSource (source : Text) (window : Window) : Locator :=
  ⟨source, .ofText source, window⟩

def reads (l : Locator) (span : Option Span) (raw : Text) : Bool :=
  match span with
  | some s => s.read l.source == raw
  | none => false

/-- The first of `tries` offsets at which the text stands, going backwards from `start` and not
beyond the beginning of the source. -/
def searchFrom (l : Locator) (raw : Text) (start : Int) : (tries : Nat) → Option Int
  | 0 => none
  | tries + 1 =>
    if start < 0 then none
    else if slice l.source start (start + raw.length) == raw then some start
    else searchFrom l raw (start - 1) tries

/-- Finds the span of a text from its reported position, unless the span that it has reads it. An
anchor without a line or a column stays as it is. -/
def search (l : Locator) (raw : Text) (a : Anchor) : Except Fault Anchor :=
  if l.reads a.span raw then .ok a
  else
    match a.line, a.column with
    | some line, some column =>
      match l.lines.offset? (line - 1) (column - 1) with
      | none => .error (.noSuchLine line)
      | some reported =>
        match l.searchFrom raw reported l.window.size with
        | some start => .ok { a with span := some ⟨start, start + raw.length⟩ }
        | none => .ok a
    | _, _ => .ok a

end Locator

/-- The text inside one pair of parentheses that wraps all of `raw`, if there is such a pair. An
opening parenthesis without a counterpart is a fault. -/
def strip? (raw : Text) : Except Bracket.Error (Option Text) :=
  match raw with
  | '(' :: inner =>
    match Bracket.round.counterpart raw 0 with
    | .error e => .error e
    | .ok index => .ok (if index = inner.length then some inner.dropLast else none)
  | _ => .ok none

theorem length_of_strip? {raw inner : Text} (h : strip? raw = .ok (some inner)) :
    inner.length + 2 = raw.length := by
  unfold strip? at h
  split at h
  · next rest =>
    split at h
    · cases h
    · next index hindex =>
      simp only [Except.ok.injEq, Option.ite_none_right_eq_some, Option.some.injEq] at h
      obtain ⟨-, rfl⟩ := h
      cases rest with
      | nil => cases hindex
      | cons c rest => simp
  · cases h

/-- The anchor of a node whose outer pair of parentheses is taken off: the span shrinks at both ends
and the column goes one back. -/
def Anchor.inset (a : Anchor) : Anchor :=
  match a.span with
  | some s =>
    { a with span := some ⟨s.start + 1, s.stop - 1⟩, column := a.column.map (· - 1) }
  | none => a

/-- What settling must know of the node beside its place: its kind, and whether it is the `step` of
its parent. -/
structure Role where
  kind : String
  isStep : Bool
deriving DecidableEq, Repr

/-- What became of a node: its text and anchor, the records, and the fault, if there was one. -/
structure Settled where
  raw : Text
  anchor : Anchor
  records : List Record
  fault : Option Fault
deriving DecidableEq, Repr

def Settled.after (s : Settled) (record : Record) : Settled :=
  { s with records := record :: s.records }

/-- Settles a text and its anchor. A concatenation without a span stays as it is. Where the text is
not found, parentheses around it may be the reason; a `step` that is not found is left alone. -/
def Locator.settle (l : Locator) (role : Role) (raw : Text) (a : Anchor) : Settled :=
  if a.span.isNone && role.kind == "ConcatOp" then ⟨raw, a, [.skippedConcatenation], none⟩
  else
    match l.search raw a with
    | .error fault => ⟨raw, a, [], some fault⟩
    | .ok a =>
      if l.reads a.span raw then
        match _h : strip? raw with
        | .error e => ⟨raw, a, [], some (.bracket e)⟩
        | .ok none => ⟨raw, a, [], none⟩
        | .ok (some inner) =>
          (l.settle role inner a.inset).after (.stripped role.kind inner)
      else if role.isStep then ⟨raw, a, [.ignoredStep a.line a.column], none⟩
      else
        match _h : strip? raw with
        | .error e => ⟨raw, a, [], some (.bracket e)⟩
        | .ok none => ⟨raw, a, [], some (.gap .misplaced role.kind a.line a.column)⟩
        | .ok (some inner) =>
          (l.settle role inner a).after (.stripped role.kind inner)
termination_by raw.length
decreasing_by all_goals have := length_of_strip? (by assumption); omega

end SyntaxSpans
