import SyntaxSpans.Proofs.LineEndings

/-!
# The window of the arguments and that of the environment

A task that names its window does not use the one of the environment. The environment is read all the
same, and before anything else: a value that is neither blank nor an integer of at least one ends the
run there. So the run is that of an environment that is not set if the value can be read, and only
then; and if it cannot, a user sees no difference only where the other run ends unreported as well
(`window_takes_precedence`).
-/

namespace SyntaxSpans

/-! ## What an environment gives -/

namespace Window

/-- The variable is not set, is blank, or spells an integer of at least one. -/
def Readable (environment : Option String) : Prop :=
  ∀ text, environment = some text →
    text.toList.all CharSet.blank.contains ∨
      ∃ n, Integer.ofSetting text.toList = .ok n ∧ 1 ≤ n

theorem readable_none : Readable none := by
  simp [Readable]

theorem checked_ok_iff {n : Int} : (∃ w, checked n = .ok w) ↔ 1 ≤ n := by
  have hpos : 0 < n.toNat ↔ 1 ≤ n := by omega
  rw [← hpos, checked, ofInt?]
  by_cases h : 0 < n.toNat
  · simp [h]
  · simp [h, Validation.fail]

/-- **The environment gives a window** exactly when it can be read. -/
theorem ofEnvironment_ok_iff {environment : Option String} :
    (∃ w, ofEnvironment environment = .ok w) ↔ Readable environment := by
  cases environment with
  | none => exact iff_of_true ⟨standard, rfl⟩ readable_none
  | some text =>
    simp only [Readable, Option.some.injEq, forall_eq', ofEnvironment]
    by_cases hblank : text.toList.all CharSet.blank.contains = true
    · simp [hblank]
    rw [if_neg hblank, or_iff_right hblank]
    cases hread : Integer.ofSetting text.toList with
    | error e => cases e <;> simp
    | ok n =>
      simp only [Except.ok.injEq, exists_eq_left']
      rw [← checked_ok_iff]
      cases checked n <;> simp

theorem ofEnvironment_error_iff {environment : Option String} :
    (∃ e, ofEnvironment environment = .error e) ↔ ¬ Readable environment := by
  rw [← ofEnvironment_ok_iff]
  cases ofEnvironment environment <;> simp

end Window

/-! ## Two runs that differ in the environment -/

namespace CommandLine

def Host.unset (host : Host) : Host := { host with environment := none }

section
variable {host : Host} {args : List String} {task : Task} {window : Window}

/-- What a task prints with a given window is no matter of the environment. -/
theorem printed_unset (host : Host) (task : Task) (window : Window) :
    printed host.unset task window = printed host task window := rfl

theorem report_ne_nil (failure : Failure) : report failure ≠ [] := by
  simp [report]

/-- **An unreported failure** is all that leaves the exit status 1 and no output. -/
theorem failure_perform (host : Host) (task : Task) :
    (perform host task).failure ≠ none ↔
      (perform host task).exit = 1 ∧ (perform host task).output = [] := by
  rw [perform]
  split
  · simp
  · split
    · simp
    · next failure _ =>
      cases hreported : failure.isReported
      · simp
      · simp [report_ne_nil]

theorem mapError_ne {ε α : Type} {f : ε → Failure} {failure : Failure} (h : ∀ e, f e ≠ failure)
    (x : Except ε α) : x.mapError f ≠ .error failure := by
  cases x with
  | error e => simpa [Except.mapError] using h e
  | ok a => simp [Except.mapError]

/-- No tree is missing because of a setting. -/
theorem obtainTree_ne_setting (host : Host) (task : Task) (source : Text) (e : Setting.Error) :
    (obtainTree host task source).2 ≠ .error (.setting e) := by
  rw [obtainTree]
  split
  · rw [Folder.tree]
    split <;> try simp
    split <;> simp
  · split
    · simp
    · exact mapError_ne (by simp) _
  · split
    · simp
    · next language _ =>
      cases host.grammar language source with
      | none => simp
      | some tree => exact mapError_ne (by simp) _

/-- Nothing that comes after the environment fails because of a setting. -/
theorem printed_ne_setting (host : Host) (task : Task) (window : Window) (e : Setting.Error) :
    (printed host task window).2.2 ≠ .error (.setting e) := by
  rw [printed]
  split
  · simp
  · next source _ =>
    split
    · next calls failure hfailure =>
      have htree := obtainTree_ne_setting host task source e
      rw [hfailure] at htree
      simpa using htree
    · split
      · simp
      · simp only
        split <;> exact mapError_ne (by simp) _

theorem failure_perform_ne_setting (h : Window.Readable host.environment) (task : Task)
    (e : Setting.Error) : (perform host task).failure ≠ some (.setting e) := by
  obtain ⟨window, hread⟩ := Window.ofEnvironment_ok_iff.2 h
  simp only [perform, hread]
  split
  · simp
  · next failure hfailure =>
    have hne := printed_ne_setting host task (task.window.getD window) e
    rw [hfailure] at hne
    split <;> simp_all

/-- An environment that can be read leaves no trace in a run that has a window of its own. -/
theorem perform_of_readable (hwindow : task.window = some window)
    (h : Window.Readable host.environment) : perform host task = perform host.unset task := by
  obtain ⟨w, hread⟩ := Window.ofEnvironment_ok_iff.2 h
  have hnone : Window.ofEnvironment host.unset.environment = .ok .standard := rfl
  simp only [perform, hread, hnone, hwindow, Option.getD_some, printed_unset]

theorem perform_of_not_readable (h : ¬ Window.Readable host.environment) (task : Task) :
    ∃ e, perform host task = { exit := 1, failure := some (.setting e) } := by
  obtain ⟨e, hread⟩ := Window.ofEnvironment_error_iff.2 h
  exact ⟨e, by simp only [perform, hread]⟩

theorem readable_unset (host : Host) : Window.Readable host.unset.environment :=
  Window.readable_none

/-- **The window of the arguments takes precedence** over that of an environment that can be read:
the run is the one without the variable, and so are two runs with such environments. An environment
that cannot be read ends the run, which then looks like the one without the variable only if that
one ends unreported as well. -/
theorem window_takes_precedence (hrequest : request? args = some (.annotate task))
    (hwindow : task.window = some window) :
    (run host args = run host.unset args ↔ Window.Readable host.environment) ∧
    ((run host args).exit = (run host.unset args).exit ∧
        (run host args).output = (run host.unset args).output ↔
      Window.Readable host.environment ∨ (run host.unset args).failure ≠ none) ∧
    (¬ Window.Readable host.environment →
      ∃ e, run host args = { exit := 1, failure := some (.setting e) }) := by
  simp only [run, hrequest]
  by_cases hread : Window.Readable host.environment
  · have heq := perform_of_readable hwindow hread
    simp [heq, hread]
  · obtain ⟨e, hend⟩ := perform_of_not_readable hread task
    refine ⟨iff_of_false (fun heq => ?_) hread, ?_, fun _ => ⟨e, hend⟩⟩
    · have hne := failure_perform_ne_setting (readable_unset host) task e
      rw [← heq, hend] at hne
      exact hne rfl
    · rw [or_iff_right hread, failure_perform, hend]
      exact and_congr eq_comm eq_comm

/-- The lines of `Host.twoLines`, with the variable set. -/
def Host.withVariable (value : String) : Host :=
  { Host.twoLines ['\n'] with environment := some value }

/-- The arguments that ask for the JSON of these lines with a window of nine offsets, and what they
stand for. -/
def askedForWindow : List String × Task :=
  (askedForLines.1 ++ ["--search-window", "9"],
    { askedForLines.2 with window := some ⟨9, by decide⟩ })

theorem request_askedForWindow :
    request? askedForWindow.1 = some (.annotate askedForWindow.2) := by
  decide +kernel

/-- Without the variable, the tree is printed. -/
theorem run_unset_askedForWindow (value : String) :
    (run (Host.withVariable value).unset askedForWindow.1).exit = 0 ∧
    (run (Host.withVariable value).unset askedForWindow.1).output ≠ [] := by
  have hasks : Asks (Host.withVariable value).unset askedForWindow.1 askedForWindow.2
      ['a', '\n', 'b'] "t" :=
    ⟨request_askedForWindow, rfl, rfl, Utf8.encode ['a', '\n', 'b'], by rfl, Utf8.decode_encode _⟩
  have htree : (Host.withVariable value).unset.folder.tree (plainPath "t") =
      .ok (.mk "Identifier" { raw := some ['b'], line := some 2, column := some 1 } []) := by
    with_unfolding_all rfl
  obtain ⟨a, c, ha, -⟩ :=
    annotate_leaf ['a', '\n', 'b'] ⟨9, by decide⟩
      (.mk "Identifier" { raw := some ['b'], line := some 2, column := some 1 } [])
      (q := { raw := some ['b'], span := some ⟨2, 3⟩, line := some 2, column := some 1 }) rfl rfl
      (by decide +kernel)
  obtain ⟨d, hwritten⟩ := written_annotated ha (by decide)
  obtain ⟨hexit, houtput⟩ := run_of_prints hasks ⟨⟨.standard, _, rfl, htree, ha⟩, hwritten⟩
  exact ⟨hexit, by simp [houtput]⟩

/-- A variable of seven with blanks around it is without effect. -/
theorem window_takes_precedence_seven :
    request? askedForWindow.1 = some (.annotate askedForWindow.2) ∧
    askedForWindow.2.window = some ⟨9, by decide⟩ ∧
    Window.Readable (Host.withVariable " 7 ").environment ∧
    run (.withVariable " 7 ") askedForWindow.1 =
      run (Host.withVariable " 7 ").unset askedForWindow.1 := by
  have hread : Window.Readable (Host.withVariable " 7 ").environment :=
    Window.ofEnvironment_ok_iff.1 ⟨⟨7, by decide⟩, by rfl⟩
  exact ⟨request_askedForWindow, rfl, hread,
    (window_takes_precedence request_askedForWindow rfl).1.2 hread⟩

/-- A word in the variable ends a run that prints a tree without it. -/
theorem not_window_takes_precedence :
    request? askedForWindow.1 = some (.annotate askedForWindow.2) ∧
    askedForWindow.2.window = some ⟨9, by decide⟩ ∧
    ((run (.withVariable "abc") askedForWindow.1).exit = 1 ∧
      (run (.withVariable "abc") askedForWindow.1).output = []) ∧
    (run (Host.withVariable "abc").unset askedForWindow.1).exit = 0 ∧
    (run (Host.withVariable "abc").unset askedForWindow.1).output ≠ [] := by
  obtain ⟨e, hend⟩ : ∃ e, Window.ofEnvironment (Host.withVariable "abc").environment = .error e :=
    ⟨.notInteger "abc", by rfl⟩
  refine ⟨request_askedForWindow, rfl, ?_, run_unset_askedForWindow "abc"⟩
  simp only [run, request_askedForWindow, perform, hend, and_self]

end

end CommandLine

end SyntaxSpans
