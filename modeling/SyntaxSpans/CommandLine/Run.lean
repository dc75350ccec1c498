import SyntaxSpans.CommandLine.Failure
import SyntaxSpans.CommandLine.Request
import SyntaxSpans.Json.Printer
import SyntaxSpans.Parser.Grammar

/-!
# Running a request

The work of the program as a function of its surroundings: the files, the environment, and what
parser commands and grammars answer.
-/

namespace SyntaxSpans

namespace CommandLine

/-- The surroundings. -/
structure Host where
  folder : Folder
  environment : Option String
  process : Command → Text → Option Completion
  grammar : Language → Text → Option GrammarNode

inductive Call where
  | process (command : Command) (stdin : Text)
  | grammar (language : Language) (source : Text)

/-- What a run leaves: its exit status, what it prints, what it asked its surroundings, and the
failure that ended it unreported, if there was one. -/
structure Outcome where
  exit : Nat
  output : Text := []
  calls : List Call := []
  failure : Option Failure := none
  records : List Record := []

/-- The tree of a source: from a file, else from a parser command, else from the grammar of its
language. -/
def obtainTree (host : Host) (task : Task) (source : Text) : List Call × Except Failure Node :=
  match task.treeFile, task.parserCommand with
  | some path, _ => ([], host.folder.tree (plainPath path))
  | none, some line =>
    match Command.ofLine line with
    | .error e => ([], .error (.command e))
    | .ok command =>
      ([.process command source], (command.tree (host.process command source)).mapError .parser)
  | none, none =>
    match Language.resolve task.language (some task.path) with
    | .error e => ([], .error (.language e))
    | .ok language =>
      let tree := match host.grammar language source with
        | none => .error (.noGrammar language)
        | some tree => (Node.ofGrammar source tree).mapError fun e => .unreadable (.undecodable e)
      ([.grammar language source], tree)

/-- What a task prints, with the window to search in. -/
def printed (host : Host) (task : Task) (window : Window) :
    List Call × List Record × Except Failure Text :=
  match host.folder.text task.path with
  | .error e => ([], [], .error (.unreadable e))
  | .ok source =>
    match obtainTree host task source with
    | (calls, .error failure) => (calls, [], .error failure)
    | (calls, .ok tree) =>
      match Annotation.run source window tree with
      | (a, some fault) => (calls, a.progress.log, .error (.fault fault))
      | (a, none) =>
        let tree := a.progress.place tree
        let text :=
          if task.json then
            (tree.write.map fun j => Json.encode .lines j ++ ['\n']).mapError .dump
          else (Overview.render source tree).mapError .overview
        (calls, a.progress.log, text)

def report (failure : Failure) : Text :=
  let line := "Error: ".toList ++ Markup.verbatim failure.message.toList
  ['\n'].intercalate (Cell.lines line) ++ ['\n']

/-- Runs a task. The environment is read first, also when the task names a window itself. -/
def perform (host : Host) (task : Task) : Outcome :=
  match Window.ofEnvironment host.environment with
  | .error e => { exit := 1, failure := some (.setting e) }
  | .ok window =>
    match printed host task (task.window.getD window) with
    | (calls, records, .ok output) => { exit := 0, output, calls, records }
    | (calls, records, .error failure) =>
      if failure.isReported then { exit := 1, output := report failure, calls, records }
      else { exit := 1, calls, failure := some failure, records }

def usage : String :=
  "Usage: ast-annotate annotate [--ast FILE] [--parser-command COMMAND] [--language NAME]\n"
    ++ "         [--search-window N] [--json] [--verbose] PATH\n"
    ++ "       ast-annotate languages\n"

/-- Runs the program with its arguments. Wrong use has exit status 2. -/
def run (host : Host) (args : List String) : Outcome :=
  match request? args with
  | none => { exit := 2, output := usage.toList }
  | some .help => { exit := 0, output := usage.toList }
  | some .languages =>
    { exit := 0, output := (Language.all.map fun l => l.name.toList ++ ['\n']).flatten }
  | some (.annotate task) => perform host task

end CommandLine

end SyntaxSpans
