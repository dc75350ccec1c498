import SyntaxSpans.Text.Blank
import SyntaxSpans.Text.Lowercase
import SyntaxSpans.Text.Quoted

/-!
# Languages

The languages that have a grammar, the names and the file extensions by which one is meant, and the
file paths that have an extension.
-/

namespace SyntaxSpans

/-- A language that has a grammar. -/
inductive Language where
  | c
  | cpp
  | csharp
  | go
  | java
  | javascript
  | lua
  | python
  | ruby
  | rust
  | tsx
  | typescript
deriving DecidableEq, Repr

namespace Language

def all : List Language :=
  [c, cpp, csharp, go, java, javascript, lua, python, ruby, rust, tsx, typescript]

def name : Language → String
  | c => "c"
  | cpp => "cpp"
  | csharp => "csharp"
  | go => "go"
  | java => "java"
  | javascript => "javascript"
  | lua => "lua"
  | python => "python"
  | ruby => "ruby"
  | rust => "rust"
  | tsx => "tsx"
  | typescript => "typescript"

def aliases : Language → List String
  | cpp => ["c++"]
  | csharp => ["c#", "cs"]
  | go => ["golang"]
  | javascript => ["js"]
  | python => ["py"]
  | ruby => ["rb"]
  | rust => ["rs"]
  | typescript => ["ts"]
  | _ => []

/-- The file extensions of a language, with their points. -/
def extensions : Language → List String
  | c => [".c", ".h"]
  | cpp => [".cc", ".cpp", ".cxx", ".hh", ".hpp"]
  | csharp => [".cs"]
  | go => [".go"]
  | java => [".java"]
  | javascript => [".js", ".jsx", ".mjs", ".cjs"]
  | lua => [".lua"]
  | python => [".py"]
  | ruby => [".rb"]
  | rust => [".rs"]
  | tsx => [".tsx"]
  | typescript => [".ts"]

/-- Why no language was found. -/
inductive Error where
  | unknownName (name : String)
  | unknownExtension (suffix : String)
  | nothingGiven
deriving DecidableEq, Repr

def Error.message : Error → String
  | .unknownName name =>
    "Unsupported language '" ++ name ++ "'. Supported: " ++ quotedList (all.map Language.name)
  | .unknownExtension suffix => "Unsupported file extension: " ++ suffix
  | .nothingGiven => "Language must be provided when no file path is available."

/-- The language that a name means, whatever its case and the blanks around it. -/
def ofName (name : String) : Except Error Language :=
  let key := String.ofList (Text.lower (Text.trim CharSet.blank name.toList))
  match all.find? fun l => l.name == key || l.aliases.contains key with
  | some l => .ok l
  | none => .error (.unknownName name)

end Language

/-- The parts of a file path: what stands between slashes, without parts that are empty or a single
point. -/
def pathParts (path : String) : List Text :=
  (path.toList.splitOn '/').filter fun part => !part.isEmpty && part != ['.']

/-- The extension of a file name with its point: it begins at the last point, unless that is the
first or the last character of the name. -/
def extension (name : Text) : Text :=
  match name.reverse.span (· != '.') with
  | (last :: rest, '.' :: _ :: _) => '.' :: (last :: rest).reverse
  | _ => []

namespace Language

/-- The language that the extension of a file path means, whatever its case. -/
def ofPath (path : String) : Except Error Language :=
  let suffix := String.ofList (Text.lower (extension ((pathParts path).getLast?.getD [])))
  match all.find? (·.extensions.contains suffix) with
  | some l => .ok l
  | none => .error (.unknownExtension suffix)

/-- The language that a name means, or else the file path. An empty name counts as none. -/
def resolve (name path : Option String) : Except Error Language :=
  match name.filter (· != ""), path with
  | some name, _ => ofName name
  | none, some path => ofPath path
  | none, none => .error .nothingGiven

end Language

end SyntaxSpans
