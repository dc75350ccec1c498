import SyntaxSpans.Folder
import SyntaxSpans.Parser.Command
import SyntaxSpans.Report.Overview
import SyntaxSpans.Setting
import SyntaxSpans.Tree.Dump

/-!
# Failures of the program

All that may keep the program from printing a tree. What its user can mend is reported in a line;
the rest ends the program as it is.
-/

namespace SyntaxSpans

/-- Why there is nothing to print. -/
inductive Failure where
  | setting (e : Setting.Error)
  | missingTree (path : String)
  | unreadable (e : Folder.Error)
  | parser (e : ParserError)
  | command (e : Command.Error)
  | language (e : Language.Error)
  | noGrammar (l : Language)
  | fault (f : Fault)
  | overview (e : Overview.Error)
  | dump (e : Dump.Error)

namespace Failure

def unreadableMessage : Folder.Error → String
  | .missing name => "[Errno 2] No such file or directory: " ++ quoted name
  | .isFolder name => "[Errno 21] Is a directory: " ++ quoted name
  | .isNoFolder name => "[Errno 20] Not a directory: " ++ quoted name
  | .tooLong name => "[Errno 36] File name too long: " ++ quoted name
  | .nullCharacter => "embedded null byte"
  | .undecodable e => e.message

def message : Failure → String
  | .setting e => e.message
  | .missingTree path => "AST file not found: " ++ path
  | .unreadable e => unreadableMessage e
  | .parser e => e.headline
  | .command e => e.message
  | .language e => e.message
  | .noGrammar l => "No grammar for '" ++ l.name ++ "' is at hand."
  | .fault f => f.message
  | .overview (.outside offset size) =>
    "Offset " ++ toString offset ++ " out of bounds (0-" ++ toString size ++ ")"
  | .overview (.bracket e) => e.message
  | .overview .markup => "A tag closes none that is open."
  | .dump e => e.message

/-- Whether the program reports the failure. A setting is read before the work begins, the table or
the JSON is made after it; a path that leads to no file is not looked into further, and a tree that
breaks the rules of trees is no user's doing. -/
def isReported : Failure → Bool
  | .setting _ | .overview _ | .dump _ => false
  | .unreadable (.isFolder _) | .unreadable (.isNoFolder _) | .unreadable (.tooLong _) => false
  | .fault (.gap ..) | .fault (.bracket (.unmatched ..)) | .fault (.bracket (.unsupported _)) => true
  | .fault _ => false
  | _ => true

end Failure

def Folder.tree (f : Folder) (path : String) : Except Failure Node :=
  match f.text path with
  | .error (.missing _) => .error (.missingTree path)
  | .error e => .error (.unreadable e)
  | .ok text =>
    match Node.ofDocument text with
    | .ok n => .ok n
    | .error e => .error (.parser e)

end SyntaxSpans
