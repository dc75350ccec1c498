import SyntaxSpans.CommandLine.Run

/-!
# The program

Reads the files that the arguments name, runs the request and prints what it leaves. Processes and
grammars are not at hand here, so a tree comes from a file.
-/

namespace SyntaxSpans

namespace CommandLine

def namedFiles (args : List String) : List String :=
  match request? args with
  | some (.annotate task) => task.path :: task.treeFile.toList
  | _ => []

/-- Reads those of the named files that exist. -/
def readFolder (names : List String) : IO Folder := do
  let mut files := []
  for name in names do
    try
      let bytes ← IO.FS.readBinFile (plainPath name)
      files := (plainPath name, bytes.toList) :: files
    catch _ => pure ()
  return ⟨files⟩

end CommandLine

end SyntaxSpans

section

open SyntaxSpans
open SyntaxSpans.CommandLine

def main (args : List String) : IO UInt32 := do
  let folder ← readFolder (namedFiles args)
  let environment ← IO.getEnv "AST_ANNOTATE_SEARCH_WINDOW"
  let host : Host := ⟨folder, environment, fun _ _ => none, fun _ _ => none⟩
  let outcome := run host args
  let verbose := match request? args with
    | some (.annotate task) => task.verbose
    | _ => false
  if verbose then
    for r in outcome.records do
      IO.eprintln (r.level.name ++ " " ++ r.message)
  match outcome.failure with
  | some failure => IO.eprintln failure.message
  | none => pure ()
  let text := String.ofList outcome.output
  if outcome.exit = 2 then IO.eprint text else IO.print text
  return outcome.exit.toUInt32

end
