import SyntaxSpans.Json.Token

/-!
# Reading JSON

A document is read token by token with a stack of the containers that are open. A key that comes
twice in an object keeps its first place and takes its last value.
-/

namespace SyntaxSpans.Json

/-- A container that is open, with what it has so far. -/
inductive Frame where
  | arr (items : List Json)
  | obj (entries : List (String × Json)) (key : String)

inductive Expected where
  | value
  /-- A value or the end of the array just begun. -/
  | item
  | key
  /-- A key or the end of the object just begun. -/
  | entry
  | colon (key : String)
  /-- A comma or the end of the open container. -/
  | separator
  /-- Nothing but the end: the document is complete. -/
  | done (document : Json)

/-- The reader between two tokens. The entries of an object that is open, but waits for a key, are
in `entries`. -/
structure Reader where
  stack : List Frame
  entries : List (String × Json)
  expected : Expected

namespace Reader

def start : Reader := ⟨[], [], .value⟩

/-- A value is complete: it goes into the innermost open container. -/
def finish (stack : List Frame) (value : Json) : Reader :=
  match stack with
  | [] => ⟨[], [], .done value⟩
  | .arr items :: rest => ⟨.arr (value :: items) :: rest, [], .separator⟩
  | .obj entries key :: rest => ⟨.obj (upsert entries key value) key :: rest, [], .separator⟩

/-- A value begins with the token, inside at most `levels` containers that have content. -/
def value? (levels : Nat) (stack : List Frame) (token : Token) : Option Reader :=
  if levels < stack.length then none
  else
    match token with
    | .literal s => some (finish stack (.scalar s))
    | .openArr => some ⟨.arr [] :: stack, [], .item⟩
    | .openObj => some ⟨stack, [], .entry⟩
    | _ => none

def step? (levels : Nat) (r : Reader) (token : Token) : Option Reader :=
  match r.expected, token with
  | .value, token => value? levels r.stack token
  | .item, .closeArr => some (finish (r.stack.drop 1) (.arr []))
  | .item, token => value? levels r.stack token
  | .entry, .closeObj => some (finish r.stack (.obj []))
  | .entry, .literal (.str key) => some ⟨r.stack, r.entries, .colon key⟩
  | .key, .literal (.str key) => some ⟨r.stack, r.entries, .colon key⟩
  | .colon key, .colon => some ⟨.obj r.entries key :: r.stack, [], .value⟩
  | .separator, .comma =>
    match r.stack with
    | .arr items :: rest => some ⟨.arr items :: rest, [], .value⟩
    | .obj entries _ :: rest => some ⟨rest, entries, .key⟩
    | [] => none
  | .separator, .closeArr =>
    match r.stack with
    | .arr items :: rest => some (finish rest (.arr items.reverse))
    | _ => none
  | .separator, .closeObj =>
    match r.stack with
    | .obj entries _ :: rest => some (finish rest (.obj entries))
    | _ => none
  | _, _ => none

def document? (r : Reader) : Option Json :=
  match r.expected with
  | .done document => some document
  | _ => none

end Reader

structure Limits where
  levels : Nat
  /-- The characters of the integer part of a number, a minus included. -/
  numberSize : Nat

def read? (limits : Limits) (t : Text) : Option Json := do
  let tokens ← Token.ofText? limits.numberSize t
  (← tokens.foldlM (Reader.step? limits.levels) Reader.start).document?

end SyntaxSpans.Json
