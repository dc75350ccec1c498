import SyntaxSpans.Text.Basic

/-!
# UTF-8

Writing text as bytes and reading bytes as text. Reading is strict: overlong forms, surrogates and
codes above U+10FFFF are refused at the first byte that cannot continue a character, and the error
names the bytes from the lead byte up to there.
-/

namespace SyntaxSpans

abbrev Bytes := List UInt8

namespace Utf8

inductive Reason where
  | invalidStart
  | invalidContinuation
  | unexpectedEnd
deriving DecidableEq, Repr

/-- The bytes at which reading stopped: `length` bytes from `start`, the first of which is `byte`. -/
structure Error where
  start : Nat
  length : Nat
  byte : UInt8
  reason : Reason
deriving DecidableEq, Repr

/-! ## Writing -/

def encodeChar (c : Char) : Bytes :=
  let n := c.toNat
  if n < 0x80 then [.ofNat n]
  else if n < 0x800 then [.ofNat (0xC0 + n / 64), .ofNat (0x80 + n % 64)]
  else if n < 0x10000 then
    [.ofNat (0xE0 + n / 4096), .ofNat (0x80 + n / 64 % 64), .ofNat (0x80 + n % 64)]
  else
    [.ofNat (0xF0 + n / 262144), .ofNat (0x80 + n / 4096 % 64), .ofNat (0x80 + n / 64 % 64),
      .ofNat (0x80 + n % 64)]

def encode (t : Text) : Bytes := t.flatMap encodeChar

/-! ## Reading -/

/-- What a lead byte announces: how many bytes follow, between which bounds the first of them lies,
and the bits that the lead byte gives itself. -/
structure Lead where
  trailing : Nat
  low : Nat
  high : Nat
  bits : Nat

def lead? (b : Nat) : Option Lead :=
  if b < 0x80 then some ⟨0, 0, 0, b⟩
  else if b < 0xC2 then none
  else if b < 0xE0 then some ⟨1, 0x80, 0xBF, b - 0xC0⟩
  else if b < 0xF0 then
    some ⟨2, if b = 0xE0 then 0xA0 else 0x80, if b = 0xED then 0x9F else 0xBF, b - 0xE0⟩
  else if b < 0xF5 then
    some ⟨3, if b = 0xF0 then 0x90 else 0x80, if b = 0xF4 then 0x8F else 0xBF, b - 0xF0⟩
  else none

/-- Reads `need` continuation bytes, the first between `low` and `high`, onto the bits in `value`;
`taken` bytes of the character were read before. -/
def trail (low high value taken : Nat) : (need : Nat) → Bytes → Except (Reason × Nat) Nat
  | 0, _ => .ok value
  | _ + 1, [] => .error (.unexpectedEnd, taken)
  | need + 1, b :: rest =>
    if low ≤ b.toNat ∧ b.toNat ≤ high then
      trail 0x80 0xBF (value * 64 + (b.toNat - 0x80)) (taken + 1) need rest
    else .error (.invalidContinuation, taken)

/-- The first character of `b :: rest`, with the number of bytes of `rest` that belong to it. -/
def first (b : UInt8) (rest : Bytes) : Except (Reason × Nat) (Char × Nat) :=
  match lead? b.toNat with
  | none => .error (.invalidStart, 1)
  | some lead =>
    (trail lead.low lead.high lead.bits 1 lead.trailing rest).map fun n =>
      (Char.ofNat n, lead.trailing)

/-- Reads bytes that begin at position `start` of the whole. -/
def decodeFrom (start : Nat) : Bytes → Except Error Text
  | [] => .ok []
  | b :: rest =>
    match first b rest with
    | .error (reason, length) => .error ⟨start, length, b, reason⟩
    | .ok (c, more) => (decodeFrom (start + 1 + more) (rest.drop more)).map (c :: ·)
termination_by bytes => bytes.length
decreasing_by
  simp only [List.length_drop, List.length_cons]
  omega

def decode (bytes : Bytes) : Except Error Text := decodeFrom 0 bytes

/-! ## Messages -/

def Reason.text : Reason → String
  | .invalidStart => "invalid start byte"
  | .invalidContinuation => "invalid continuation byte"
  | .unexpectedEnd => "unexpected end of data"

/-- The error in words: one byte is shown with its value, several with their positions. -/
def Error.message (e : Error) : String :=
  let place :=
    if e.length = 1 then
      let digits := Nat.toDigits 16 e.byte.toNat
      let padded := List.replicate (2 - digits.length) '0' ++ digits
      "byte 0x" ++ String.ofList padded ++ " in position " ++ toString e.start
    else
      "bytes in position " ++ toString e.start ++ "-" ++ toString (e.start + e.length - 1)
  "'utf-8' codec can't decode " ++ place ++ ": " ++ e.reason.text

end Utf8

end SyntaxSpans
