import SyntaxSpans.CommandLine.Run
import SyntaxSpans.Proofs.Bounds
import SyntaxSpans.Proofs.Encoding
import SyntaxSpans.Proofs.Exactness
import SyntaxSpans.Proofs.RoundTrip
import SyntaxSpans.Proofs.Stripping

/-!
# Spans and the file they were made for

A file is read with its line endings turned into line feeds, and nodes are placed in what was read.
A return with a line feed behind it becomes one character, so behind the first of them every offset is
one less than in the file. The spans that the program prints therefore read the text of the file if
there is no return in it; and with a return there is always a tree whose spans do not
(`printed_reads_file`).
-/

namespace SyntaxSpans

namespace Text

/-! ## Turning line endings into line feeds -/

section
variable {t before rest : Text}

theorem withLineFeeds_cons {c : Char} (h : c ≠ '\r') :
    withLineFeeds (c :: rest) = c :: rest.withLineFeeds := by
  rw [withLineFeeds] <;> simp_all

/-- Nothing changes in front of the first return. -/
theorem withLineFeeds_append (h : '\r' ∉ before) (rest : Text) :
    withLineFeeds (before ++ rest) = before ++ rest.withLineFeeds := by
  induction before with
  | nil => rfl
  | cons c before ih =>
    rw [List.mem_cons, not_or] at h
    rw [List.cons_append, withLineFeeds_cons (Ne.symm h.1), ih h.2, List.cons_append]

theorem withLineFeeds_of_not_mem (h : '\r' ∉ t) : t.withLineFeeds = t := by
  have happ := withLineFeeds_append h []
  rwa [List.append_nil, withLineFeeds, List.append_nil] at happ

theorem withLineFeeds_return (rest : Text) :
    ∃ rest', withLineFeeds ('\r' :: rest) = '\n' :: rest' := by
  cases rest with
  | nil => exact ⟨[], rfl⟩
  | cons c rest =>
    by_cases hc : c = '\n'
    · subst hc
      exact ⟨withLineFeeds rest, rfl⟩
    · refine ⟨withLineFeeds (c :: rest), ?_⟩
      rw [withLineFeeds]
      simp [hc]

end

end Text

/-- A span that ends in front of it does not read what follows. -/
theorem Span.read_append {s : Span} {before : Text} (h : s.Inside before) (rest : Text) :
    s.read (before ++ rest) = s.read before := by
  obtain ⟨h0, hle, hend⟩ := h
  obtain ⟨start, stop⟩ := s
  obtain ⟨i, rfl⟩ := Int.eq_ofNat_of_zero_le h0
  obtain ⟨j, rfl⟩ := Int.eq_ofNat_of_zero_le (Int.le_trans h0 hle)
  simp only [Int.ofNat_le] at hle hend
  rw [read, read, slice_natCast _ hend (by omega), slice_natCast _ _ _,
    List.take_append_of_le_length hend]
  all_goals (rw [List.length_append]; omega)

/-- Without a return, or in front of the first one, a span reads the same with line feeds only. -/
theorem Span.read_withLineFeeds {s : Span} {text : Text}
    (h : '\r' ∉ text ∨ s.Inside (text.takeWhile (· != '\r'))) :
    s.read text.withLineFeeds = s.read text := by
  rcases h with hnone | hinside
  · rw [Text.withLineFeeds_of_not_mem hnone]
  · have hfront : '\r' ∉ text.takeWhile (· != '\r') := fun hmem => by
      simpa using List.mem_takeWhile_imp hmem
    rw [← List.takeWhile_append_dropWhile (p := (· != '\r')) (l := text),
      Text.withLineFeeds_append hfront, read_append hinside, read_append hinside]

/-- In the source, the span of every node that is not exempt reads the node's text. -/
def Annotated.Reads (a : Annotated) (source : Text) : Prop :=
  ∀ c ∈ a.nodes, ¬ c.Exempt → ∃ raw span, c.node.placement.raw = some raw ∧
    c.node.placement.span = some span ∧ span.read source = raw

section
variable {source text : Text} {window : Window} {tree : Node} {a : Annotated}

theorem reads_annotated (h : annotate source window tree = .ok a) : a.Reads source := by
  intro c' hc' hx
  rw [nodes_eq h] at hc'
  obtain ⟨c, hc, rfl⟩ := List.mem_map.1 hc'
  obtain ⟨text, raw, -, hraw, -, hreads⟩ := settles_of_not_exempt h hc hx
  obtain ⟨span, hspan, hread⟩ := Locator.span_of_reads hreads
  exact ⟨raw, span, (Progress.placement_placed ..).symm ▸ hraw,
    (Progress.placement_placed ..).symm ▸ hspan, hread⟩

theorem written_annotated (h : annotate source window tree = .ok a)
    (hlevels : tree.dumpLevels ≤ Dump.maxLevels) : ∃ d, a.tree.write = .ok d := by
  rw [(annotate_ok.1 h).2, Progress.place_eq, Node.write, dumpLevels_relabel, if_pos hlevels]
  exact ⟨_, rfl⟩

/-- What is reported to be a line feed, where a text has its first return. -/
def Node.lineFeedAt (offset : Nat) : Node :=
  .mk "Terminator" { raw := some ['\n'], span := some ⟨offset, offset + 1⟩ } []

theorem ofJson_lineFeedAt (offset : Nat) :
    Node.ofJson (Node.lineFeedAt offset).dump = .ok (.lineFeedAt offset) := rfl

/-- **A return is read as a line feed**, and so is the node that is placed there. -/
theorem annotate_lineFeedAt {before : Text} (h : '\r' ∉ before) (rest : Text) (window : Window) :
    ∃ a, annotate (before ++ '\r' :: rest).withLineFeeds window (.lineFeedAt before.length) = .ok a ∧
      (∃ d, a.tree.write = .ok d) ∧ ¬ a.Reads (before ++ '\r' :: rest) := by
  obtain ⟨rest', hrest⟩ := Text.withLineFeeds_return rest
  rw [Text.withLineFeeds_append h, hrest]
  have hstands : Text.StandsAt ['\n'] (before ++ '\n' :: rest') before.length :=
    ⟨rest', by simp⟩
  have hfinal : (Locator.ofSource (before ++ '\n' :: rest') window).final?
      (.root (.lineFeedAt before.length)) = some (Node.lineFeedAt before.length).placement := by
    have hown : (Cursor.root (.lineFeedAt before.length)).rule = .own ['\n'] :=
      Cursor.rule_own.2 rfl
    rw [Locator.final?_own hown, Locator.settled?,
      (Locator.settle_of_standsAt rfl hstands).2 none rfl]
    rw [strips_of_not_some (by simp [strip?]), Anchor.insetBy_zero]
    rfl
  obtain ⟨a, c, ha, hnodes, hq, hpath⟩ := annotate_leaf _ window _ rfl rfl hfinal
  have hlevels : (Node.lineFeedAt before.length).dumpLevels = 1 := rfl
  refine ⟨a, ha, written_annotated ha (by rw [hlevels]; decide), fun hreads => ?_⟩
  obtain ⟨raw, span, hraw, hspan, hread⟩ := hreads c (by simp [hnodes])
    (by simp [Cursor.Exempt, hq, Node.lineFeedAt, Cursor.isIn, hpath])
  rw [hq] at hraw hspan
  cases hraw
  cases hspan
  have hstands : Text.StandsAt ['\n'] (before ++ '\r' :: rest) before.length :=
    slice_eq_iff_standsAt.1 hread
  rw [Text.StandsAt, List.drop_left, List.cons_prefix_cons] at hstands
  cases hstands.1

end

/-! ## What the program prints -/

namespace CommandLine

section
variable {host : Host} {args : List String} {task : Task} {text : Text} {file : String}
  {a : Annotated} {d : Json}

/-- The arguments ask for JSON, and name a file with the text and a file for the tree. -/
structure Asks (host : Host) (args : List String) (task : Task) (text : Text) (file : String) :
    Prop where
  request : request? args = some (.annotate task)
  json : task.json = true
  treeFile : task.treeFile = some file
  source : ∃ bytes, host.folder.bytes task.path = .ok bytes ∧ Utf8.decode bytes = .ok text

/-- The tree of the file is annotated, and there is JSON of it. -/
structure Prints (host : Host) (task : Task) (text : Text) (file : String) (a : Annotated)
    (d : Json) : Prop where
  annotated : ∃ window tree, Window.ofEnvironment host.environment = .ok window ∧
    host.folder.tree (plainPath file) = .ok tree ∧
    annotate text.withLineFeeds (task.window.getD window) tree = .ok a
  written : a.tree.write = .ok d

theorem Asks.reads (h : Asks host args task text file) :
    host.folder.text task.path = .ok text.withLineFeeds ∧
    ∀ source, obtainTree host task source = ([], host.folder.tree (plainPath file)) := by
  obtain ⟨-, -, hfile, bytes, hbytes, hdecode⟩ := h
  refine ⟨?_, fun source => ?_⟩
  · rw [Folder.text, hbytes]
    simp only [hdecode]
  · rw [obtainTree, hfile]

theorem printed_ok_iff (h : Asks host args task text file) {window : Window} {output : Text} :
    (printed host task window).2.2 = .ok output ↔
      ∃ tree, host.folder.tree (plainPath file) = .ok tree ∧
      ∃ a, annotate text.withLineFeeds window tree = .ok a ∧
      ∃ d, a.tree.write = .ok d ∧ output = Json.encode .lines d ++ ['\n'] := by
  obtain ⟨htext, hobtain⟩ := h.reads
  rw [printed, htext]
  simp only [hobtain, h.json, if_true, annotate]
  cases host.folder.tree (plainPath file) with
  | error e => simp
  | ok tree =>
    simp only [Except.ok.injEq, exists_eq_left']
    obtain ⟨b, _ | fault⟩ := Annotation.run text.withLineFeeds window tree
    · cases hwrite : (b.progress.place tree).write <;>
        simp [hwrite, Except.map, Except.mapError, eq_comm]
    · simp

/-- The JSON of the annotated tree is printed, if there is any. -/
theorem run_of_prints (h : Asks host args task text file) (hp : Prints host task text file a d) :
    (run host args).exit = 0 ∧ (run host args).output = Json.encode .lines d ++ ['\n'] := by
  obtain ⟨⟨window, tree, henv, htree, ha⟩, hwritten⟩ := hp
  have hprinted := (printed_ok_iff h).2 ⟨tree, htree, a, ha, d, hwritten, rfl⟩
  rw [run, h.request]
  simp only [perform, henv]
  split
  · next calls records output hok =>
    rw [hok, Except.ok.injEq] at hprinted
    exact ⟨rfl, hprinted⟩
  · next calls records failure herror =>
    rw [herror] at hprinted
    cases hprinted

/-- **A run that ends well** has annotated the tree. -/
theorem prints_of_run (h : Asks host args task text file) (hexit : (run host args).exit = 0) :
    ∃ a d, Prints host task text file a d := by
  rw [run, h.request] at hexit
  simp only [perform] at hexit
  split at hexit
  · cases hexit
  · next window henv =>
    split at hexit
    · next calls records output hprinted =>
      obtain ⟨tree, htree, a, ha, d, hwritten, -⟩ :=
        (printed_ok_iff h).1 (congrArg (·.2.2) hprinted)
      exact ⟨a, d, ⟨window, tree, henv, htree, ha⟩, hwritten⟩
    · split at hexit <;> cases hexit

/-- **The spans that are printed read the file** in front of its first return, and everywhere if it
has none. With a return in it there is a tree whose spans do not, whatever else is asked for. -/
theorem printed_reads_file (text : Text) :
    (∀ host args task file, Asks host args task text file → (run host args).exit = 0 →
      ∃ a d, Prints host task text file a d ∧
        (run host args).output = Json.encode .lines d ++ ['\n'] ∧
        ∀ c ∈ a.nodes, ¬ c.Exempt → ∃ raw span, c.node.placement.raw = some raw ∧
          c.node.placement.span = some span ∧ span.read text.withLineFeeds = raw ∧
          ('\r' ∉ text ∨ span.Inside (text.takeWhile (· != '\r')) → span.read text = raw)) ∧
    ('\r' ∈ text → ∃ j tree, Node.ofJson j = .ok tree ∧
      ∀ host args task file window, Asks host args task text file →
      Window.ofEnvironment host.environment = .ok window →
      host.folder.tree (plainPath file) = .ok tree →
      (run host args).exit = 0 ∧ ∃ a d, Prints host task text file a d ∧
        (run host args).output = Json.encode .lines d ++ ['\n'] ∧ ¬ a.Reads text) := by
  constructor
  · intro host args task file hasks hexit
    obtain ⟨a, d, hprints⟩ := prints_of_run hasks hexit
    refine ⟨a, d, hprints, (run_of_prints hasks hprints).2, fun c hc hx => ?_⟩
    obtain ⟨window, tree, -, -, ha⟩ := hprints.annotated
    obtain ⟨raw, span, hraw, hspan, hread⟩ := reads_annotated ha c hc hx
    exact ⟨raw, span, hraw, hspan, hread, fun h => (Span.read_withLineFeeds h).symm.trans hread⟩
  · intro hreturn
    obtain ⟨before, rest, rfl, hfirst⟩ := List.eq_append_cons_of_mem hreturn
    -- the tree has a line feed where the return is, which the source has after reading and the file has not
    refine ⟨_, .lineFeedAt before.length, ofJson_lineFeedAt _,
      fun host args task file window hasks henv htree => ?_⟩
    obtain ⟨a, ha, ⟨d, hwritten⟩, hnot⟩ :=
      annotate_lineFeedAt hfirst rest (task.window.getD window)
    have hprints : Prints host task _ file a d := ⟨⟨window, _, henv, htree, ha⟩, hwritten⟩
    obtain ⟨hexit, houtput⟩ := run_of_prints hasks hprints
    exact ⟨hexit, a, d, hprints, houtput, hnot⟩

/-- A file with two lines, the first of which ends as given, and a tree that names the second one. -/
def Host.twoLines (ending : Text) : Host where
  folder :=
    let tree := "\x7b\"type\": \"Identifier\", \"raw\": \"b\", \"line\": 2, \"column\": 1\x7d"
    ⟨[("s", Utf8.encode ('a' :: ending ++ ['b'])), ("t", Utf8.encode tree.toList)]⟩
  environment := none
  process := fun _ _ => none
  grammar := fun _ _ => none

/-- The arguments that ask for the JSON of these lines, and what they stand for. -/
def askedForLines : List String × Task :=
  (["annotate", "s", "--ast", "t", "--json"], ⟨"s", some "t", none, none, none, true, false⟩)

theorem asks_twoLines (ending : Text) :
    Asks (.twoLines ending) askedForLines.1 askedForLines.2 ('a' :: ending ++ ['b']) "t" :=
  ⟨by decide +kernel, rfl, rfl, Utf8.encode ('a' :: ending ++ ['b']), by rfl, Utf8.decode_encode _⟩

theorem prints_twoLines (ending : Text)
    (h : Text.withLineFeeds ('a' :: ending ++ ['b']) = ['a', '\n', 'b']) :
    ∃ a d c, Prints (.twoLines ending) askedForLines.2 ('a' :: ending ++ ['b']) "t" a d ∧
      a.nodes = [c] ∧ ¬ c.Exempt ∧ c.node.placement =
        { raw := some ['b'], span := some ⟨2, 3⟩, line := some 2, column := some 1 } := by
  have htree : (Host.twoLines ending).folder.tree (plainPath "t") =
      .ok (.mk "Identifier" { raw := some ['b'], line := some 2, column := some 1 } []) := by
    with_unfolding_all rfl
  obtain ⟨a, c, ha, hnodes, hq, hpath⟩ :=
    annotate_leaf ['a', '\n', 'b'] .standard
      (.mk "Identifier" { raw := some ['b'], line := some 2, column := some 1 } [])
      (q := { raw := some ['b'], span := some ⟨2, 3⟩, line := some 2, column := some 1 }) rfl rfl
      (by decide +kernel)
  obtain ⟨d, hwritten⟩ := written_annotated ha (by decide)
  rw [← h] at ha
  exact ⟨a, d, c, ⟨⟨.standard, _, rfl, htree, ha⟩, hwritten⟩, hnodes,
    by simp [Cursor.Exempt, hq, Cursor.isIn, hpath], hq⟩

/-- Of lines that end in a line feed the spans are right. -/
theorem printed_reads_file_lines :
    (run (.twoLines ['\n']) askedForLines.1).exit = 0 ∧
    ∃ (a : Annotated) (d : Json),
      (run (.twoLines ['\n']) askedForLines.1).output = Json.encode .lines d ++ ['\n'] ∧
      a.tree.write = .ok d ∧ a.Reads ['a', '\n', 'b'] := by
  obtain ⟨_, _, -, hprints, -⟩ := prints_twoLines ['\n'] rfl
  have hasks : Asks _ _ _ ['a', '\n', 'b'] _ := asks_twoLines ['\n']
  have hexit := (run_of_prints hasks hprints).1
  obtain ⟨a, d, hprints, houtput, hreads⟩ :=
    (printed_reads_file ['a', '\n', 'b']).1 _ _ _ _ hasks hexit
  refine ⟨hexit, a, d, houtput, hprints.written, fun c hc hx => ?_⟩
  obtain ⟨raw, span, hraw, hspan, -, hread⟩ := hreads c hc hx
  exact ⟨raw, span, hraw, hspan, hread (Or.inl (by decide))⟩

/-- With a return in front of the line feed the name is one offset further than printed. -/
theorem not_printed_reads_file :
    Asks (.twoLines ['\r', '\n']) askedForLines.1 askedForLines.2 ['a', '\r', '\n', 'b'] "t" ∧
    (run (.twoLines ['\r', '\n']) askedForLines.1).exit = 0 ∧
    ∃ (a : Annotated) (d : Json),
      (run (.twoLines ['\r', '\n']) askedForLines.1).output = Json.encode .lines d ++ ['\n'] ∧
      a.tree.write = .ok d ∧ ¬ a.Reads ['a', '\r', '\n', 'b'] := by
  obtain ⟨a, d, c, hprints, hnodes, hx, hq⟩ := prints_twoLines ['\r', '\n'] rfl
  have hasks : Asks _ _ _ ['a', '\r', '\n', 'b'] _ := asks_twoLines ['\r', '\n']
  obtain ⟨hexit, houtput⟩ := run_of_prints hasks hprints
  refine ⟨hasks, hexit, a, d, houtput, hprints.written, fun hreads => ?_⟩
  obtain ⟨raw, span, hraw, hspan, hread⟩ := hreads c (by simp [hnodes]) hx
  rw [hq] at hraw hspan
  cases hraw
  cases hspan
  exact absurd hread (by decide)

end

end CommandLine

end SyntaxSpans
