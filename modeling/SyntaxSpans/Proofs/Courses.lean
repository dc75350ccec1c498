import SyntaxSpans.Tree.Cursor

/-!
# The course of a node

What can be noted while nodes are being resolved, and what such a journal may have about one node: it is
begun once, a text is given to it only if it has none, and each time that it is dealt with anew its text is
two characters shorter. Each of these rules is about one entry and the status that it leads from and to
(`Course`), so a journal keeps to them if every step does. `Course.bounded` counts what comes together.
-/

namespace SyntaxSpans

/-- What is entered in a journal. -/
inductive Entry where
  /-- A node is dealt with for the first time, with the text that it has. -/
  | first (path : Path) (text : Option Text)
  /-- A node gets its text from its operands. -/
  | given (path : Path) (text : Text)
  /-- A node is dealt with anew, with what is left of its text. -/
  | again (path : Path) (text : Text)
  /-- An operator is taken ahead of the one that begins with it. -/
  | chained (path : Path)
deriving DecidableEq, Repr

/-! ## What a journal has about one node -/

namespace Entry

def isAbout (path : Path) : Entry → Bool
  | .first p _ | .given p _ | .again p _ => p == path
  | .chained _ => false

def isFirst (path : Path) : Entry → Bool
  | .first p _ => p == path
  | _ => false

/-- Whether a round of the node at a path begins with the entry. -/
def isRound (path : Path) : Entry → Bool
  | .first p _ | .again p _ => p == path
  | _ => false

/-- The text that the node at a path has from the entry on. -/
def text? (path : Path) : Entry → Option Text
  | .first p text => if p = path then text else none
  | .given p text | .again p text => if p = path then some text else none
  | .chained _ => none

/-- How far down an entry stands. What is taken ahead comes before all that is done with it. -/
def level : Entry → Nat
  | .first p _ | .given p _ | .again p _ => 2 * p.length + 1
  | .chained p => 2 * p.length

def texts (path : Path) (journal : List Entry) : List Text := journal.filterMap (text? path)

def size (text : Option Text) : Nat := (text.map (·.length)).getD 0

@[simp] theorem size_none : size none = 0 := rfl

@[simp] theorem size_some (text : Text) : size (some text) = text.length := rfl

section
variable {path : Path} {e : Entry} {text : Text} {known : Option Text} {journal : List Entry}

theorem not_about_of_level (h : 2 * path.length + 1 < e.level) : e.isAbout path = false := by
  cases e with
  | chained => rfl
  | first p | given p | again p =>
    refine beq_eq_false_iff_ne.2 fun heq => ?_
    rw [level, heq] at h
    omega

theorem countP_isFirst_of_not_about (h : e.isAbout path = false) :
    (e :: journal).countP (·.isFirst path) = journal.countP (·.isFirst path) := by
  have hfirst : e.isFirst path = false := by
    cases e <;> first | exact h | rfl
  exact List.countP_cons_of_neg (by simp [hfirst])

theorem countP_isRound_of_not_about (h : e.isAbout path = false) :
    (e :: journal).countP (·.isRound path) = journal.countP (·.isRound path) := by
  have hround : e.isRound path = false := by
    cases e <;> first | exact h | rfl
  exact List.countP_cons_of_neg (by simp [hround])

theorem texts_cons_of_not_about (h : e.isAbout path = false) :
    texts path (e :: journal) = texts path journal := by
  refine List.filterMap_cons_none ?_
  cases e <;> simp_all [isAbout, text?]

@[simp] theorem texts_first :
    texts path (.first path known :: journal) = known.toList ++ texts path journal := by
  cases known <;> simp [texts, text?]

@[simp] theorem texts_given : texts path (.given path text :: journal) = text :: texts path journal := by
  simp [texts, text?]

@[simp] theorem texts_again : texts path (.again path text :: journal) = text :: texts path journal := by
  simp [texts, text?]

end

end Entry

/-- What a journal follows of a node: whether it has been dealt with, and its text. -/
structure Status where
  resolved : Bool
  raw : Option Text

open Entry (texts size)

/-- The entries about one node take it from one status to another. -/
inductive Course (path : Path) : Status → List Entry → Status → Prop
  | done {s : Status} : Course path s [] s
  | other {e : Entry} {journal : List Entry} {s s' : Status} (hother : e.isAbout path = false)
    (hrest : Course path s journal s') : Course path s (e :: journal) s'
  | first {journal : List Entry} {text : Option Text} {s' : Status}
    (hrest : Course path ⟨true, text⟩ journal s') :
    Course path ⟨false, text⟩ (.first path text :: journal) s'
  | given {journal : List Entry} {text : Text} {s' : Status}
    (hrest : Course path ⟨true, some text⟩ journal s') :
    Course path ⟨true, none⟩ (.given path text :: journal) s'
  | again {journal : List Entry} {text inner : Text} {s' : Status}
    (hlength : inner.length + 2 = text.length) (hrest : Course path ⟨true, some inner⟩ journal s') :
    Course path ⟨true, some text⟩ (.again path inner :: journal) s'

namespace Course

variable {path : Path} {s s' s'' : Status} {journal journal' : List Entry}

theorem trans (h : Course path s journal s') (h' : Course path s' journal' s'') :
    Course path s (journal ++ journal') s'' := by
  induction h with
  | done => exact h'
  | other hother _ ih => exact .other hother (ih h')
  | first _ ih => exact .first (ih h')
  | given _ ih => exact .given (ih h')
  | again hlength _ ih => exact .again hlength (ih h')

theorem split (h : Course path s (journal ++ journal') s'') :
    ∃ s', Course path s journal s' ∧ Course path s' journal' s'' := by
  induction journal generalizing s with
  | nil => exact ⟨s, .done, h⟩
  | cons e journal ih =>
    cases h with
    | other hother hrest =>
      obtain ⟨s', h, h'⟩ := ih hrest
      exact ⟨s', .other hother h, h'⟩
    | first hrest =>
      obtain ⟨s', h, h'⟩ := ih hrest
      exact ⟨s', .first h, h'⟩
    | given hrest =>
      obtain ⟨s', h, h'⟩ := ih hrest
      exact ⟨s', .given h, h'⟩
    | again hlength hrest =>
      obtain ⟨s', h, h'⟩ := ih hrest
      exact ⟨s', .again hlength h, h'⟩

theorem eq_of_not_about (h : Course path s journal s') (hnone : ∀ e ∈ journal, e.isAbout path = false) :
    s' = s := by
  induction h with
  | done => rfl
  | other _ _ ih => exact ih (List.forall_mem_cons.1 hnone).2
  | first | given | again =>
    have := (List.forall_mem_cons.1 hnone).1
    simp [Entry.isAbout] at this

theorem of_not_about (hnone : ∀ e ∈ journal, e.isAbout path = false) : Course path s journal s := by
  induction journal with
  | nil => exact .done
  | cons e journal ih =>
    obtain ⟨he, hrest⟩ := List.forall_mem_cons.1 hnone
    exact .other he (ih hrest)

theorem resolved (h : Course path s journal s') (hs : s.resolved = true) : s'.resolved = true := by
  induction h with
  | done => exact hs
  | other _ _ ih => exact ih hs
  | first => cases hs
  | given _ ih | again _ _ ih => exact ih rfl

/-! ### A node that has been begun -/

/-- The last text that it was known to have is the one that it has. -/
theorem raw_of_begun (h : Course path s journal s') (hs : s.resolved = true) :
    s'.raw = (texts path journal).getLast?.or s.raw := by
  induction h with
  | done => rfl
  | other hother _ ih => rw [ih hs, Entry.texts_cons_of_not_about hother]
  | first => cases hs
  | given _ ih | again _ _ ih => simp [ih rfl, List.getLast?_cons]

theorem not_first_of_begun (h : Course path s journal s') (hs : s.resolved = true) :
    journal.countP (·.isFirst path) = 0 := by
  induction h with
  | done => rfl
  | other hother _ ih => rw [Entry.countP_isFirst_of_not_about hother, ih hs]
  | first => cases hs
  | given _ ih | again _ _ ih => simpa [Entry.isFirst] using ih rfl

/-- Every further round takes two characters off its text. -/
theorem rounds_of_begun (h : Course path s journal s') (hs : s.resolved = true) :
    size s'.raw + 2 * journal.countP (·.isRound path) =
      size (s.raw.or (texts path journal).head?) := by
  induction h with
  | done => simp [texts]
  | other hother _ ih =>
    rw [Entry.countP_isRound_of_not_about hother, Entry.texts_cons_of_not_about hother, ih hs]
  | first => cases hs
  | given _ ih => simpa [Entry.isRound] using ih rfl
  | again hlength _ ih =>
    have hrest := ih rfl
    rw [List.countP_cons_of_pos (by simp [Entry.isRound])]
    simp only [Option.some_or, Entry.size_some] at hrest ⊢
    omega

/-! ### A node that has not been dealt with yet -/

theorem raw_of_fresh (h : Course path s journal s') (hs : s.resolved = false)
    (hs' : s'.resolved = true) : s'.raw = (texts path journal).getLast? := by
  induction h with
  | done => rw [hs] at hs'; cases hs'
  | other hother _ ih => rw [ih hs hs', Entry.texts_cons_of_not_about hother]
  | @first _ text _ hrest =>
    have hlast : text.toList.getLast? = text := by cases text <;> rfl
    rw [hrest.raw_of_begun rfl, Entry.texts_first, List.getLast?_append, hlast]
  | given | again => cases hs

theorem first_of_fresh (h : Course path s journal s') (hs : s.resolved = false) :
    journal.countP (·.isFirst path) ≤ 1 := by
  induction h with
  | done => exact Nat.zero_le _
  | other hother _ ih =>
    rw [Entry.countP_isFirst_of_not_about hother]
    exact ih hs
  | first hrest =>
    have := hrest.not_first_of_begun rfl
    rw [List.countP_cons_of_pos (by simp [Entry.isFirst])]
    omega
  | given | again => cases hs

/-- The text that it has is the first one. -/
theorem head?_of_fresh (h : Course path s journal s') (hs : s.resolved = false)
    (hs' : s'.resolved = true) : (texts path journal).head? = s.raw.or (texts path journal).head? := by
  induction h with
  | done => rw [hs] at hs'; cases hs'
  | other hother _ ih => rw [Entry.texts_cons_of_not_about hother, ← ih hs hs']
  | @first journal text _ _ =>
    rw [Entry.texts_first, List.head?_append, Option.head?_toList, ← Option.or_assoc, Option.or_self]
  | given | again => cases hs

/-- It gets one round, and a further one for every two characters that its text has lost. -/
theorem rounds_of_fresh (h : Course path s journal s') (hs : s.resolved = false)
    (hs' : s'.resolved = true) :
    size s'.raw + 2 * journal.countP (·.isRound path) = size (texts path journal).head? + 2 := by
  induction h with
  | done => rw [hs] at hs'; cases hs'
  | other hother _ ih =>
    rw [Entry.countP_isRound_of_not_about hother, Entry.texts_cons_of_not_about hother, ih hs hs']
  | first hrest =>
    have hrounds := hrest.rounds_of_begun rfl
    rw [List.countP_cons_of_pos (by simp [Entry.isRound]), Entry.texts_first, List.head?_append,
      Option.head?_toList]
    simp only at hrounds
    omega
  | given | again => cases hs

theorem no_round_of_fresh (h : Course path s journal s') (hs' : s'.resolved = false) :
    journal.countP (·.isRound path) = 0 := by
  induction h with
  | done => rfl
  | other hother _ ih => rw [Entry.countP_isRound_of_not_about hother, ih hs']
  | first hrest | given hrest | again _ hrest =>
    rw [hrest.resolved rfl] at hs'
    cases hs'

end Course

/-- How often a journal comes back to the node at a path. -/
structure Bounded (path : Path) (journal : List Entry) : Prop where
  /-- It is begun once. -/
  once : journal.countP (·.isFirst path) ≤ 1
  /-- Where it is dealt with anew, its text is two characters shorter than the one it had last. -/
  shorter : ∀ before inner after, journal = before ++ .again path inner :: after →
    ∃ text, (texts path before).getLast? = some text ∧ inner.length + 2 = text.length
  /-- It gets one round, and one for every two characters of the first text that it had. -/
  rounds : journal.countP (·.isRound path) ≤ 1 + size (texts path journal).head? / 2

/-- A node that has not been dealt with before keeps to these bounds. -/
theorem Course.bounded {path : Path} {s s' : Status} {journal : List Entry}
    (h : Course path s journal s') (hs : s.resolved = false) : Bounded path journal := by
  refine ⟨h.first_of_fresh hs, fun before inner after hjournal => ?_, ?_⟩
  · rw [hjournal] at h
    obtain ⟨s₁, hbefore, hrest⟩ := h.split
    cases hrest with
    | other hother => simp [Entry.isAbout] at hother
    | again hlength => exact ⟨_, (hbefore.raw_of_fresh hs rfl).symm, hlength⟩
  · cases hs' : s'.resolved with
    | true =>
      have := h.rounds_of_fresh hs hs'
      omega
    | false =>
      have := h.no_round_of_fresh hs'
      omega

end SyntaxSpans
