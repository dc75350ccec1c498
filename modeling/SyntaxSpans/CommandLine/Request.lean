import SyntaxSpans.Setting

/-!
# Requests on the command line

What the arguments of the program ask for. Options may stand anywhere among the arguments of a
command, up to a `--`; of an option that comes twice the last value counts.
-/

namespace SyntaxSpans

namespace CommandLine

/-- What to annotate, and how. -/
structure Task where
  path : String
  treeFile : Option String
  parserCommand : Option String
  language : Option String
  window : Option Window
  json : Bool
  verbose : Bool
deriving DecidableEq

inductive Request where
  | annotate (task : Task)
  | languages
  | help
deriving DecidableEq

/-- The options of a command that take a value. -/
def valued : List String := ["--ast", "--parser-command", "--language", "--search-window"]

/-- The options of a command that take none, with what each stands for. -/
def flags : List (String × String) :=
  [("--json", "json"), ("--verbose", "verbose"), ("-v", "verbose"), ("--help", "help"),
    ("-h", "help")]

/-- Arguments taken apart: values by option, the flags that are set, and the rest. -/
structure Arguments where
  values : List (String × String) := []
  set : List String := []
  positional : List String := []

structure Known where
  valued : List String
  flags : List (String × String)

/-- An argument split at its first equals sign. -/
def splitAssignment (arg : String) : String × Option String :=
  match arg.toList.span (· != '=') with
  | (name, _ :: value) => (String.ofList name, some (String.ofList value))
  | (_, []) => (arg, none)

/-- The flags that a cluster of letters sets, if the command knows all of them. -/
def cluster? (known : Known) (letters : Text) : Option (List String) :=
  letters.mapM fun c => known.flags.lookup (String.ofList ['-', c])

/-- Takes arguments apart, as far as the command knows the options. -/
def takeApart (known : Known) (a : Arguments) (args : List String) : Option Arguments :=
  match args with
  | [] => some a
  | arg :: rest =>
    if arg = "--" then some { a with positional := a.positional ++ rest }
    else if arg.startsWith "--" then
      let (name, value?) := splitAssignment arg
      match known.flags.lookup name, value? with
      | some flag, none => takeApart known { a with set := flag :: a.set } rest
      | some _, some _ => none
      | none, value? =>
        if known.valued.contains name then
          match value?, rest with
          | some value, rest => takeApart known { a with values := (name, value) :: a.values } rest
          | none, value :: rest =>
            takeApart known { a with values := (name, value) :: a.values } rest
          | none, [] => none
        else none
    else if arg.startsWith "-" && arg != "-" then
      match cluster? known (arg.toList.drop 1) with
      | some set => takeApart known { a with set := set ++ a.set } rest
      | none => none
    else takeApart known { a with positional := a.positional ++ [arg] } rest
termination_by args.length

def window? (value : String) : Option Window :=
  match Integer.ofSetting value.toList with
  | .ok n => Window.ofInt? n
  | .error _ => none

def isPath (arg : String) : Bool := !arg.toList.contains (Char.ofNat 0)

def annotateRequest? (args : List String) : Option Request := do
  let a ← takeApart ⟨valued, flags⟩ {} args
  if a.set.contains "help" then return .help
  let window ← match a.values.lookup "--search-window" with
    | some value => (window? value).map some
    | none => some none
  if !(a.positional ++ (a.values.lookup "--ast").toList).all isPath then none
  match a.positional with
  | [path] =>
    return .annotate {
      path
      treeFile := a.values.lookup "--ast"
      parserCommand := a.values.lookup "--parser-command"
      language := a.values.lookup "--language"
      window
      json := a.set.contains "json"
      verbose := a.set.contains "verbose" }
  | _ => none

def languagesRequest? (args : List String) : Option Request := do
  let a ← takeApart ⟨[], flags.filter (·.2 == "help")⟩ {} args
  if a.set.contains "help" then return .help
  if a.positional.isEmpty then return .languages else none

/-- The command that comes behind the options of the program itself, with its arguments, and whether
one of those options asks for help. -/
def command? (help : Bool) (args : List String) : Option (Bool × List String) :=
  match args with
  | [] => some (help, [])
  | arg :: rest =>
    if arg = "--" then some (help, rest)
    else if arg.startsWith "-" && arg != "-" then
      if ["-h", "--help"].contains arg then command? true rest else none
    else some (help, args)

/-- What the arguments ask for, unless they are used wrongly. -/
def request? (args : List String) : Option Request := do
  match ← command? false args with
  | (true, _) => return .help
  | (false, "annotate" :: rest) => annotateRequest? rest
  | (false, "languages" :: rest) => languagesRequest? rest
  | _ => none

end CommandLine

end SyntaxSpans
