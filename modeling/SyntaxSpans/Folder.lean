import SyntaxSpans.Language
import SyntaxSpans.Text.Utf8

/-!
# Files

A folder with the bytes of its files by name, and reading one of them as text. A path is followed part
by part, and each part but the last has to be a folder.
-/

namespace SyntaxSpans

structure Folder where
  files : List (String × Bytes)

/-- Why a file cannot be read. The name is the one that was looked for. -/
inductive Folder.Error where
  | missing (name : String)
  | isFolder (name : String)
  /-- The path goes on behind a file. -/
  | isNoFolder (name : String)
  | tooLong (name : String)
  | nullCharacter
  | undecodable (e : Utf8.Error)
deriving DecidableEq, Repr

/-- Text in which every line ends in a line feed: a return, with or without a line feed behind it,
becomes one. -/
def Text.withLineFeeds : Text → Text
  | '\r' :: '\n' :: rest => '\n' :: withLineFeeds rest
  | '\r' :: rest => '\n' :: withLineFeeds rest
  | c :: rest => c :: withLineFeeds rest
  | [] => []

/-- The slashes in front of a path: two, and no more, stay two. -/
def pathRoot (path : String) : String :=
  match path.toList with
  | '/' :: '/' :: '/' :: _ => "/"
  | '/' :: '/' :: _ => "//"
  | '/' :: _ => "/"
  | _ => ""

/-- A path in its plain form: without empty parts and parts that are a single point. -/
def plainPath (path : String) : String :=
  let plain := pathRoot path ++ "/".intercalate ((pathParts path).map String.ofList)
  if plain.isEmpty then "." else plain

namespace Folder

/-- What stands at the end of a path. Nothing is known of what is around the folder. -/
inductive Place where
  | folder (parts : List Text)
  | file (bytes : Bytes)
  | around

def maxPart : Nat := 255

def maxPath : Nat := 4095

def byteLength (t : Text) : Nat := (Utf8.encode t).length

/-- One part further along a path. -/
def enter? (f : Folder) (root name : String) (place : Place) (part : Text) :
    Except Error Place :=
  if maxPart < byteLength part then
    match place with
    | .file _ => .error (.isNoFolder name)
    | _ => .error (.tooLong name)
  else
    match place with
    | .file _ => .error (.isNoFolder name)
    | .around => if part = ['.', '.'] then .ok .around else .error (.missing name)
    | .folder parts =>
      if part = ['.', '.'] then
        .ok (if parts.isEmpty && root.isEmpty then .around else .folder parts.dropLast)
      else
        let parts := parts ++ [part]
        let inRoot := f.files.filter fun (key, _) => pathRoot key == root
        match inRoot.find? fun (key, _) => pathParts key == parts with
        | some (_, bytes) => .ok (.file bytes)
        | none =>
          if inRoot.any fun (key, _) => parts.isPrefixOf (pathParts key) then .ok (.folder parts)
          else .error (.missing name)

def bytes (f : Folder) (path : String) : Except Error Bytes :=
  let name := plainPath path
  if path.toList.contains (Char.ofNat 0) then .error .nullCharacter
  else if maxPath < byteLength name.toList then .error (.tooLong name)
  else
    match (pathParts path).foldlM (f.enter? (pathRoot path) name) (.folder []) with
    | .error e => .error e
    | .ok (.file bytes) => .ok bytes
    | .ok _ => .error (.isFolder name)

/-- The text of a file, with line feeds only. -/
def text (f : Folder) (path : String) : Except Error Text :=
  match f.bytes path with
  | .error e => .error e
  | .ok bytes =>
    match Utf8.decode bytes with
    | .error e => .error (.undecodable e)
    | .ok t => .ok t.withLineFeeds

end Folder

end SyntaxSpans
