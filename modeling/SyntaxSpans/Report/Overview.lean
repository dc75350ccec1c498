import SyntaxSpans.Annotation
import SyntaxSpans.Report.Markup
import SyntaxSpans.Report.Table

/-!
# An annotated tree at a glance

One row per node, in the order of the walk: its kind, indented by depth, the span and where it
starts, the reported position, the kind of the parent, whether parentheses stand around it, and the
beginning of its text. Kinds may hold markup; in texts it is escaped.
-/

namespace SyntaxSpans

namespace Overview

inductive Error where
  /-- A span starts outside the source. -/
  | outside (offset : Int) (size : Nat)
  | bracket (e : Bracket.Error)
  /-- A kind has a tag that closes none. -/
  | markup

def previewLength : Nat := 40

/-- The beginning of a text, on one line. -/
def preview (raw : Option Text) : Text :=
  match raw with
  | none => ['-']
  | some raw =>
    let line := raw.flatMap fun c => if c = '\n' then ['\\', 'n'] else [c]
    if previewLength < line.length then line.take (previewLength - 3) ++ ['.', '.', '.'] else line

def pair (a : String) (separator : String) (b : String) : Text :=
  (a ++ separator ++ b).toList

/-- The span of a node and where it starts, counted from one. -/
def span (lines : LineMap) : Option Span → Except Error (Text × Text)
  | none => .ok (['-'], ['-'])
  | some s =>
    match lines.location? s.start with
    | none => .error (.outside s.start lines.size)
    | some (line, column) =>
      .ok (pair (toString s.start) "-" (toString s.stop),
        pair (toString (line + 1)) ":" (toString (column + 1)))

def parentheses (source : Text) (s : Option Span) : Except Error Text :=
  match Bracket.surrounds "(" s source with
  | .ok true => .ok "yes".toList
  | .ok false => .ok []
  | .error (.unmatched _ _) => .ok "unbalanced".toList
  | .error e => .error (.bracket e)

/-- What a row shows: markup, or a text as it is. -/
inductive Content where
  | markup (t : Text)
  | text (t : Text)

def Content.shown : Content → Except Error Text
  | .text t => .ok (Markup.verbatim t)
  | .markup t =>
    match Markup.shown? t with
    | some t => .ok t
    | none => .error .markup

def row (source : Text) (lines : LineMap) (c : Cursor) : Except Error (List Content) := do
  let p := c.node.placement
  let (range, start) ← span lines p.span
  let reported := match p.line with
    | some line => pair (toString line) ":" (optionalNumber p.column)
    | none => ['-']
  let parens ← parentheses source p.span
  return [.markup (Text.blanks (2 * c.path.length) ++ c.kind.toList), .text range, .text start,
    .text reported, .markup (c.parentKind.getD "-").toList, .text parens, .text (preview p.raw)]

def headers : List Text :=
  ["type", "range", "start", "reported", "parent", "parens", "raw"].map String.toList

/-- The table of a tree, with the number of its nodes below. All rows are made before any is shown. -/
def render (source : Text) (tree : Node) : Except Error Text := do
  let rows ← (Cursor.root tree).preorder.mapM (row source (.ofText source))
  let count := "(" ++ toString tree.count ++ " nodes)\n"
  let cells ← rows.mapM fun row => row.mapM Content.shown
  return (Table.mk headers cells).render ++ count.toList

end Overview

end SyntaxSpans
