import SyntaxSpans.Text.CharWidth

/-!
# Width of text in terminal cells

Characters may be drawn together: what stands behind a joiner is part of the character in front of it,
a variation selector may widen the character before it, and what fills no cell belongs to the character
before it. A text is cut between such clusters only.
-/

namespace SyntaxSpans.Text

def joiner : Char := Char.ofNat 0x200D

/-- The variation selector that asks for an emoji. -/
def emojiSelector : Char := Char.ofNat 0xFE0F

/-- The cells that a variation selector adds to the character in front of it. -/
def widening : Option Char → Nat
  | some c => if CharSet.widened.contains c then 1 else 0
  | none => 0

/-- The cells that a text fills behind `last`, the last character that fills any. -/
def cellWidthAfter (last : Option Char) : Text → Nat
  | [] => 0
  | [c] => if c = joiner then 0 else if c = emojiSelector then widening last else charWidth c
  | c :: d :: rest =>
    if c = joiner then cellWidthAfter last rest
    else if c = emojiSelector then widening last + cellWidthAfter none (d :: rest)
    else charWidth c + cellWidthAfter (if charWidth c = 0 then last else some c) (d :: rest)

def cellWidth (t : Text) : Nat := cellWidthAfter none t

/-- Characters that are drawn together, and the cells that they fill. -/
structure Cluster where
  text : Text
  width : Nat
deriving Repr

namespace Cluster

/-- Puts characters into the last cluster, which comes first here. Without a cluster they are one. -/
def extend (clusters : List Cluster) (more : Text) (width : Nat) : List Cluster :=
  match clusters with
  | [] => [⟨more, 0⟩]
  | c :: rest => ⟨c.text ++ more, c.width + width⟩ :: rest

/-- The clusters of a text behind those in `read`, the last of which comes first. -/
def behind (last : Option Char) (read : List Cluster) : Text → List Cluster
  | [] => read.reverse
  | [c] =>
    (if c = joiner then extend read [c] 0
    else if c = emojiSelector then extend read [c] (widening last)
    else if charWidth c = 0 then extend read [c] 0
    else ⟨[c], charWidth c⟩ :: read).reverse
  | c :: d :: rest =>
    if c = joiner && !read.isEmpty then behind last (extend read [c, d] 0) rest
    else if c = emojiSelector then
      behind (if widening last = 0 then last else none) (extend read [c] (widening last))
        (d :: rest)
    else if charWidth c = 0 then behind last (extend read [c] 0) (d :: rest)
    else behind (some c) (⟨[c], charWidth c⟩ :: read) (d :: rest)

def ofText (t : Text) : List Cluster := behind none [] t

/-- As many clusters as have room. When half a cluster would have room, a blank takes its place. -/
def cut (room : Nat) : List Cluster → Text
  | [] => []
  | c :: rest =>
    if room = 0 then []
    else if c.width ≤ room then c.text ++ cut (room - c.width) rest
    else [' ']

end Cluster

def blanks (n : Nat) : Text := List.replicate n ' '

def padded (width : Nat) (t : Text) : Text := t ++ blanks (width - cellWidth t)

/-- The text with exactly the given width: cut, or filled up with blanks. -/
def fitted (width : Nat) (t : Text) : Text :=
  if width < cellWidth t then Cluster.cut width (Cluster.ofText t) else padded width t

end SyntaxSpans.Text
