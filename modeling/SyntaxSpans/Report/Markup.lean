import SyntaxSpans.Report.Markup.Style
import SyntaxSpans.Text.Emoji

/-!
# Markup in displayed text

A display reads a word in square brackets as a tag: it says how to draw what follows and is not shown
itself. A tag that begins with a slash closes the last open one, or the last one of its name. A
backslash in front of a tag takes it as plain text, and two backslashes stand for one there. Text that
is no markup is escaped before it is displayed, so that its tags are shown.

A bracket that begins no tag may have a backslash in front as well, which is not shown, and a single
backslash at the end of a text is escaped for the sake of a tag that may follow. Names of emoji are
replaced in plain text, whether it was escaped or not.
-/

namespace SyntaxSpans.Markup

/-! ## Tags and plain text -/

/-- Whether a text behind an opening bracket makes it a tag: a small letter or one of `#`, `/` and
`@` comes first, and a closing bracket before any further opening one. -/
def isTag : Text → Bool
  | [] => false
  | c :: rest =>
    (c.isLower || c = '#' || c = '/' || c = '@')
      && rest.find? (fun d => d = '[' || d = ']') == some ']'

/-- Escapes a text behind `k` backslashes. -/
def escapeFrom (k : Nat) : Text → Text
  | [] => if k = 1 then ['\\'] else []
  | c :: rest =>
    if c = '\\' then c :: escapeFrom (k + 1) rest
    else if c = '[' && isTag rest then List.replicate (k + 1) '\\' ++ c :: escapeFrom 0 rest
    else c :: escapeFrom 0 rest

def escape (t : Text) : Text := escapeFrom 0 t

/-- A piece of markup: plain text, or a tag without its brackets. -/
inductive Piece where
  | plain (t : Text)
  | tag (t : Text)
deriving DecidableEq, Repr

/-- The text without backslashes directly in front of brackets, one for each bracket. -/
def bareBrackets : Text → Text
  | [] => []
  | [c] => [c]
  | c :: d :: rest =>
    if c = '\\' ∧ d = '[' then d :: bareBrackets rest else c :: bareBrackets (d :: rest)

def plainPiece (t : Text) : List Piece := if t.isEmpty then [] else [.plain t]

/-- The pieces of markup. What was read since the last tag is in `read`, the last character first, and
`k` backslashes follow it. -/
def piecesFrom (read : Text) (k : Nat) (t : Text) : List Piece :=
  match t with
  | [] => plainPiece (bareBrackets (read.reverse ++ List.replicate k '\\'))
  | c :: rest =>
    if c = '\\' then piecesFrom read (k + 1) rest
    else if c = '[' && isTag rest then
      let tag := rest.takeWhile (· != ']')
      plainPiece (bareBrackets read.reverse) ++ plainPiece (List.replicate (k / 2) '\\')
        ++ (if k % 2 = 1 then .plain ('[' :: tag ++ [']']) else .tag tag)
        :: piecesFrom [] 0 ((rest.dropWhile (· != ']')).drop 1)
    else piecesFrom (c :: (List.replicate k '\\' ++ read)) 0 rest
termination_by t.length
decreasing_by
  · simp only [List.length_cons, Nat.lt_add_one]
  · have := (List.dropWhile_sublist (· != ']') (l := rest)).length_le
    rw [List.length_drop, List.length_cons]
    omega
  · simp only [List.length_cons, Nat.lt_add_one]

def pieces (t : Text) : List Piece := piecesFrom [] 0 t

/-! ## Handlers

A tag that begins with `@` may have a parameter: a handler's name and arguments. -/

inductive Argument where
  | atom
  | opened (close : Char)
  | closed (close : Char)
  | comma
deriving DecidableEq, Repr

def isQuote (c : Char) : Bool := c.toNat = 39 || c.toNat = 34

def behindQuote (quote : Char) : Text → Option Text
  | [] => none
  | '\\' :: _ :: rest => behindQuote quote rest
  | c :: rest => if c = quote then some rest else behindQuote quote rest

theorem length_of_behindQuote {quote : Char} {t rest : Text} (h : behindQuote quote t = some rest) :
    rest.length < t.length := by
  fun_induction behindQuote quote t <;> simp_all <;> omega

/-- Whether a word is an argument by itself: a number, or one of three names. -/
def isAtom (word : Text) : Bool :=
  let unsigned := word.dropWhile fun c => c = '-' || c = '+'
  let (whole, behind) := unsigned.span Char.isDigit
  let isPadded := whole.head? = some '0' && whole.any (· != '0')
  let isWhole := behind.isEmpty && !isPadded
  let isDecimal := behind.head? = some '.' && (behind.drop 1).all Char.isDigit
  ["None", "True", "False"].contains (String.ofList word)
    || (!whole.isEmpty && (isWhole || isDecimal))

def arguments? (t : Text) : Option (List Argument) :=
  match t with
  | [] => some []
  | c :: rest =>
    if c = ' ' || c = '\t' then arguments? rest
    else if c = '(' then (arguments? rest).map (.opened ')' :: ·)
    else if c = '[' then (arguments? rest).map (.opened ']' :: ·)
    else if c = ')' || c = ']' then (arguments? rest).map (.closed c :: ·)
    else if c = ',' then (arguments? rest).map (.comma :: ·)
    else if isQuote c then
      match _h : behindQuote c rest with
      | some rest' => (arguments? rest').map (.atom :: ·)
      | none => none
    else
      let inWord (d : Char) : Bool := !isQuote d && !" \t()[],".toList.contains d
      if isAtom (c :: rest.takeWhile inWord) then
        (arguments? (rest.dropWhile inWord)).map (.atom :: ·)
      else none
termination_by t.length
decreasing_by
  all_goals try simp only [List.length_cons, Nat.lt_add_one]
  · have := length_of_behindQuote (by assumption)
    omega
  · exact Nat.lt_succ_of_le (List.dropWhile_sublist _).length_le

/-- Whether arguments are well formed inside the brackets in `closing`. An argument may begin if
`isNext` is true, and a comma may follow if there is an argument already, that is if `hasOne` is
true. -/
def isSound (closing : List Char) (isNext : Bool) (hasOne : Bool) : List Argument → Bool
  | [] => closing.isEmpty && hasOne
  | .atom :: rest => isNext && isSound closing false true rest
  | .opened c :: rest => isNext && isSound (c :: closing) true false rest
  | .closed c :: rest =>
    match closing with
    | [] => false
    | d :: closing => c = d && isSound closing false true rest
  | .comma :: rest => hasOne && !isNext && isSound closing true hasOne rest

/-- Whether a tag with a handler can be closed: behind a name of letters, digits and points there are
arguments in parentheses, or none. -/
def isHandlerSound (parameters : Text) : Bool :=
  let t := Text.trim CharSet.blank parameters
  let behind := t.dropWhile fun c => c.isAlphanum || c = '_' || c = '.'
  behind.isEmpty
    || (match arguments? (if behind.head? = some '(' then behind else t) with
      | some arguments => isSound [] true false arguments
      | none => false)

/-! ## Display -/

/-- A tag that is open: the normal form of its name, and what stands behind an equals sign. -/
structure OpenTag where
  name : Text
  parameters : Option Text

/-- Text shown so far, the last piece first, and the tags that are open, the last one first. -/
structure Shown where
  openTags : List OpenTag := []
  pieces : List Text := []

/-- Closes a tag, unless it has a handler that makes no sense. -/
def OpenTag.close? (tag : OpenTag) : Option Unit :=
  match tag.name, tag.parameters with
  | '@' :: _, some parameters =>
    if parameters.isEmpty || isHandlerSound parameters then some () else none
  | _, _ => some ()

/-- One tag further. A tag that closes another one has to find it open. -/
def Shown.tag? (s : Shown) (tag : Text) : Option Shown := do
  let (name, behind) := tag.span (· != '=')
  let parameters := if behind.isEmpty then none else some (behind.drop 1)
  match name with
  | '/' :: name =>
    let wanted := Text.trim CharSet.blank name
    let isWanted (t : OpenTag) : Bool := wanted.isEmpty || t.name == Style.normalForm wanted
    let found ← s.openTags.find? isWanted
    found.close?
    return { s with openTags := s.openTags.eraseP isWanted }
  | name => return { s with openTags := ⟨Style.normalForm name, parameters⟩ :: s.openTags }

def Shown.next? (s : Shown) : Piece → Option Shown
  | .plain t => some { s with pieces := Emoji.replaceNames t :: s.pieces }
  | .tag t => s.tag? t

def shown? (t : Text) : Option Text :=
  ((pieces t).foldlM Shown.next? {}).map fun s => s.pieces.reverse.flatten

/-- What is shown of a text that is escaped first: all of its pieces are plain. -/
def verbatim (t : Text) : Text :=
  (pieces (escape t)).flatMap fun
    | .plain t => Emoji.replaceNames t
    | .tag t => t

end SyntaxSpans.Markup
