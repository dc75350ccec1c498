import SyntaxSpans.Json.Basic
import SyntaxSpans.Text.Basic

/-!
# JSON tokens

Splits a document into its punctuation, names and literals. Beside the standard's literals the names
`NaN`, `Infinity` and `-Infinity` are numbers. A control character inside a string, an escaped
surrogate without its partner, and a number with a leading zero are refused.
-/

namespace SyntaxSpans.Json

inductive Token where
  | openArr
  | closeArr
  | openObj
  | closeObj
  | colon
  | comma
  | literal (s : Scalar)
deriving Inhabited

namespace Token

/-! ## Strings -/

def hexDigit? (c : Char) : Option Nat :=
  if '0' ≤ c ∧ c ≤ '9' then some (c.toNat - '0'.toNat)
  else if 'a' ≤ c ∧ c ≤ 'f' then some (c.toNat - 'a'.toNat + 10)
  else if 'A' ≤ c ∧ c ≤ 'F' then some (c.toNat - 'A'.toNat + 10)
  else none

/-- The code unit that four hexadecimal digits spell. -/
def unit? (a b c d : Char) : Option Nat := do
  return (((← hexDigit? a) * 16 + (← hexDigit? b)) * 16 + (← hexDigit? c)) * 16 + (← hexDigit? d)

def escapeLetter? (c : Char) : Option Char :=
  match c with
  | '"' => some '"'
  | '\\' => some '\\'
  | '/' => some '/'
  | 'b' => some (Char.ofNat 8)
  | 'f' => some (Char.ofNat 12)
  | 'n' => some '\n'
  | 'r' => some '\r'
  | 't' => some '\t'
  | _ => none

/-- The character of two surrogate code units. -/
def pair? (high low : Nat) : Option Char :=
  if 0xD800 ≤ high ∧ high < 0xDC00 ∧ 0xDC00 ≤ low ∧ low < 0xE000 then
    some (Char.ofNat (0x10000 + (high - 0xD800) * 0x400 + (low - 0xDC00)))
  else none

/-- Reads a string up to its closing quote, with `read` holding what came before, last one first. -/
def stringFrom (read : Text) : Text → Option (String × Text)
  | [] => none
  | '"' :: rest => some (String.ofList read.reverse, rest)
  | '\\' :: 'u' :: a :: b :: c :: d :: rest =>
    match unit? a b c d with
    | none => none
    | some n =>
      if 0xD800 ≤ n ∧ n < 0xE000 then
        match rest with
        | '\\' :: 'u' :: e :: f :: g :: h :: rest =>
          match unit? e f g h with
          | none => none
          | some m =>
            match pair? n m with
            | none => none
            | some c => stringFrom (c :: read) rest
        | _ => none
      else stringFrom (Char.ofNat n :: read) rest
  | '\\' :: c :: rest =>
    match escapeLetter? c with
    | none => none
    | some e => stringFrom (e :: read) rest
  | c :: rest => if c.toNat < 0x20 then none else stringFrom (c :: read) rest

/-! ## Numbers -/

def natOf (digits : Text) : Nat := digits.foldl (fun n c => 10 * n + (c.toNat - '0'.toNat)) 0

def spanDigits (t : Text) : Text × Text := (t.takeWhile Char.isDigit, t.dropWhile Char.isDigit)

/-- The double nearest to `digits * 10 ^ exponent`. Far outside the range of doubles the answer is
known without the power. -/
def double (negative : Bool) (digits : Nat) (exponent : Int) : Float :=
  let size : Int := (Nat.toDigits 10 digits).length + exponent
  let x : Float :=
    if digits = 0 ∨ size < -400 then 0.0
    else if 400 < size then 1.0 / 0.0
    else if exponent < 0 then Float.ofScientific digits true exponent.natAbs
    else Float.ofScientific digits false exponent.natAbs
  if negative then -x else x

/-- The digits behind a point, if there is a point. -/
def fraction? : Text → Option (Option Text × Text)
  | '.' :: rest =>
    match spanDigits rest with
    | ([], _) => none
    | (digits, rest) => some (some digits, rest)
  | t => some (none, t)

/-- A sign in front of a text: whether it is a minus, and the rest. -/
def sign : Text → Bool × Text
  | '-' :: rest => (true, rest)
  | '+' :: rest => (false, rest)
  | t => (false, t)

/-- The power of ten behind an `e`, if there is an `e`. -/
def exponent? (t : Text) : Option (Option Int × Text) :=
  match t with
  | [] => some (none, [])
  | c :: rest =>
    if c = 'e' ∨ c = 'E' then
      match spanDigits (sign rest).2 with
      | ([], _) => none
      | (digits, rest') =>
        some (some (if (sign rest).1 then -(natOf digits : Int) else natOf digits), rest')
    else some (none, t)

/-- The number with the given parts: an integer, if there is neither a fraction nor an exponent. -/
def number (negative : Bool) (whole : Text) (fraction : Option Text) (exponent : Option Int) :
    Scalar :=
  match fraction, exponent with
  | none, none => .int (if negative then -(natOf whole : Int) else natOf whole)
  | _, _ =>
    let digits := fraction.getD []
    .float (double negative (natOf (whole ++ digits)) (exponent.getD 0 - digits.length))

/-- Reads a number without its sign. What stands in front of a point or an exponent has at most
`size` characters, a minus included. -/
def numberFrom (size : Nat) (negative : Bool) (t : Text) : Option (Scalar × Text) :=
  match spanDigits t with
  | ([], _) => none
  | ('0' :: _ :: _, _) => none
  | (whole, rest) =>
    if size < negative.toNat + whole.length then none
    else
      match fraction? rest with
      | none => none
      | some (fraction, rest) =>
        match exponent? rest with
        | none => none
        | some (exponent, rest) => some (number negative whole fraction exponent, rest)

/-! ## Tokens -/

def after? (name : String) (t : Text) : Option Text :=
  if name.toList.isPrefixOf t then some (t.drop name.length) else none

def first? (size : Nat) (c : Char) (rest : Text) : Option (Token × Text) :=
  match c with
  | '[' => some (.openArr, rest)
  | ']' => some (.closeArr, rest)
  | '{' => some (.openObj, rest)
  | '}' => some (.closeObj, rest)
  | ':' => some (.colon, rest)
  | ',' => some (.comma, rest)
  | '"' => (stringFrom [] rest).map fun (s, rest) => (.literal (.str s), rest)
  | 't' => (after? "rue" rest).map (.literal (.bool true), ·)
  | 'f' => (after? "alse" rest).map (.literal (.bool false), ·)
  | 'n' => (after? "ull" rest).map (.literal .null, ·)
  | 'N' => (after? "aN" rest).map (.literal (.float (0.0 / 0.0)), ·)
  | 'I' => (after? "nfinity" rest).map (.literal (.float (1.0 / 0.0)), ·)
  | '-' =>
    match after? "Infinity" rest with
    | some rest => some (.literal (.float (-(1.0 / 0.0))), rest)
    | none => (numberFrom size true rest).map fun (s, rest) => (.literal s, rest)
  | _ => (numberFrom size false (c :: rest)).map fun (s, rest) => (.literal s, rest)

/-- The four characters that may stand between tokens. -/
def isSpace (c : Char) : Bool := c = ' ' || c = '\t' || c = '\r' || c = '\n'

/-! ## Every token takes something off the text -/

theorem length_of_stringFrom {read t rest : Text} {s : String}
    (h : stringFrom read t = some (s, rest)) : rest.length < t.length := by
  fun_induction stringFrom read t <;> simp_all <;> omega

theorem length_spanDigits (t : Text) :
    (spanDigits t).1.length + (spanDigits t).2.length = t.length := by
  rw [← List.length_append]
  exact congrArg List.length List.takeWhile_append_dropWhile

theorem length_of_spanDigits {t digits rest : Text} (h : spanDigits t = (digits, rest)) :
    digits.length + rest.length = t.length := by
  have hl := length_spanDigits t
  rw [h] at hl
  exact hl

theorem length_of_fraction? {t rest : Text} {digits : Option Text}
    (h : fraction? t = some (digits, rest)) : rest.length ≤ t.length := by
  unfold fraction? at h
  split at h
  · split at h
    · cases h
    · next heq =>
      cases h
      have hl := length_of_spanDigits heq
      rw [List.length_cons]
      omega
  · cases h
    exact Nat.le_refl _

theorem length_sign (t : Text) : (sign t).2.length ≤ t.length := by
  unfold sign
  split
  · exact Nat.le_succ _
  · exact Nat.le_succ _
  · exact Nat.le_refl _

theorem length_of_exponent? {t rest : Text} {e : Option Int}
    (h : exponent? t = some (e, rest)) : rest.length ≤ t.length := by
  unfold exponent? at h
  split at h
  · cases h
    exact Nat.le_refl _
  · next c t' =>
    split at h
    · split at h
      · cases h
      · next heq =>
        cases h
        have hl := length_of_spanDigits heq
        have hs := length_sign t'
        rw [List.length_cons]
        omega
    · cases h
      exact Nat.le_refl _

theorem length_of_numberFrom {size : Nat} {negative : Bool} {t rest : Text} {s : Scalar}
    (h : numberFrom size negative t = some (s, rest)) : rest.length < t.length := by
  unfold numberFrom at h
  split at h
  · cases h
  · cases h
  · next whole rest₁ hne _ heq =>
    have hl := length_of_spanDigits heq
    have hpos : 0 < whole.length := List.length_pos_iff.2 hne
    split at h
    · cases h
    · split at h
      · cases h
      · next hf =>
        have h₁ := length_of_fraction? hf
        split at h
        · cases h
        · next he =>
          have h₂ := length_of_exponent? he
          cases h
          omega

theorem length_of_after? {name : String} {t rest : Text} (h : after? name t = some rest) :
    rest.length ≤ t.length := by
  unfold after? at h
  split at h
  · cases h
    rw [List.length_drop]
    omega
  · cases h

theorem length_of_first? {size : Nat} {c : Char} {rest rest' : Text} {token : Token}
    (h : first? size c rest = some (token, rest')) : rest'.length ≤ rest.length := by
  unfold first? at h
  split at h
  case h_13 =>
    split at h
    · next ha =>
      cases h
      exact length_of_after? ha
    · simp only [Option.map_eq_some_iff, Prod.mk.injEq] at h
      obtain ⟨⟨s, t⟩, hn, -, rfl⟩ := h
      exact Nat.le_of_lt (length_of_numberFrom hn)
  case h_14 =>
    simp only [Option.map_eq_some_iff, Prod.mk.injEq] at h
    obtain ⟨⟨s, t⟩, hn, -, rfl⟩ := h
    exact Nat.le_of_lt_succ (length_of_numberFrom hn)
  case h_7 =>
    simp only [Option.map_eq_some_iff, Prod.mk.injEq] at h
    obtain ⟨⟨s, t⟩, hs, -, rfl⟩ := h
    exact Nat.le_of_lt (length_of_stringFrom hs)
  case h_8 | h_9 | h_10 | h_11 | h_12 =>
    simp only [Option.map_eq_some_iff, Prod.mk.injEq] at h
    obtain ⟨t, ha, -, rfl⟩ := h
    exact length_of_after? ha
  all_goals
    cases h
    exact Nat.le_refl _

/-- The tokens of a document, if it has no others and no number with an integer part of more than
`size` characters. -/
def ofText? (size : Nat) (t : Text) : Option (List Token) :=
  match t with
  | [] => some []
  | c :: rest =>
    if isSpace c then ofText? size rest
    else
      match _h : first? size c rest with
      | none => none
      | some (token, rest') => (ofText? size rest').map (token :: ·)
termination_by t.length
decreasing_by
  · simp only [List.length_cons, Nat.lt_add_one]
  · rw [List.length_cons]
    exact Nat.lt_succ_of_le (length_of_first? (by assumption))

end Token

end SyntaxSpans.Json
