import SyntaxSpans.Text.Basic

/-!
# Shortest decimal text of a floating-point number

A double stands for every real that rounds to it. Of the decimals in that interval the shortest is
written, and of several equally short ones the nearest to the double itself. All arithmetic is exact.
-/

namespace SyntaxSpans

namespace Decimal

/-- A positive number as a quotient. -/
structure Ratio where
  num : Nat
  den : Nat

/-- `r * 10 ^ k`. -/
def Ratio.shift (r : Ratio) (k : Int) : Ratio :=
  if 0 ≤ k then ⟨r.num * Nat.pow 10 k.toNat, r.den⟩ else ⟨r.num, r.den * Nat.pow 10 (-k).toNat⟩

/-- `m * 2 ^ q`. -/
def Ratio.binary (m : Nat) (q : Int) : Ratio :=
  if 0 ≤ q then ⟨m * Nat.pow 2 q.toNat, 1⟩ else ⟨m, Nat.pow 2 (-q).toNat⟩

/-- A positive double `mantissa * 2 ^ exponent`, with the interval of reals that round to it. -/
structure Double where
  mantissa : Nat
  exponent : Int

namespace Double

/-- The value, in quarters of the last binary place. -/
def value (d : Double) : Ratio := .binary (4 * d.mantissa) (d.exponent - 2)

/-- The least real that rounds to the double. Below a power of two the grid is twice as fine. -/
def lower (d : Double) : Ratio :=
  let gap := if d.mantissa = Nat.pow 2 52 ∧ -1074 < d.exponent then 1 else 2
  .binary (4 * d.mantissa - gap) (d.exponent - 2)

def upper (d : Double) : Ratio := .binary (4 * d.mantissa + 2) (d.exponent - 2)

/-- Whether `n * 10 ^ k` rounds to the double; the ends do so iff the mantissa is even. -/
def accepts (d : Double) (n : Nat) (k : Int) : Bool :=
  let lo := d.lower.shift (-k)
  let hi := d.upper.shift (-k)
  if d.mantissa % 2 = 0 then lo.num ≤ n * lo.den && n * hi.den ≤ hi.num
  else lo.num < n * lo.den && n * hi.den < hi.num

/-- The nearest accepted point of the grid `10 ^ k`, if one of the value's neighbours is accepted;
of two equally near ones the even. -/
def onGrid? (d : Double) (k : Int) : Option Nat :=
  let v := d.value.shift (-k)
  let below := v.num / v.den
  match d.accepts below k, d.accepts (below + 1) k with
  | true, true =>
    let twice := 2 * (v.num % v.den)
    if twice < v.den then some below
    else if v.den < twice then some (below + 1)
    else some (below + below % 2)
  | true, false => some below
  | false, true => some (below + 1)
  | false, false => none

/-- The number of decimal digits in front of the point; for a value below one, minus the number of
zeros that follow the point. -/
def magnitude (d : Double) : Int :=
  let v := d.value
  if v.den ≤ v.num then (Nat.toDigits 10 (v.num / v.den)).length
  else 1 - (Nat.toDigits 10 ((v.den + v.num - 1) / v.num - 1)).length

/-- Tries grids with ever more digits; `tries` of them are left. -/
def search (d : Double) (magnitude : Int) (digits : Nat) : (tries : Nat) → Nat × Int
  | 0 => (d.value.num / d.value.den, 0)
  | tries + 1 =>
    let k := magnitude - digits
    match d.onGrid? k with
    | some n => (n, k)
    | none => search d magnitude (digits + 1) tries

/-- The shortest decimal `n * 10 ^ k` that rounds to the double. Seventeen digits always do. -/
def shortest (d : Double) : Nat × Int := d.search d.magnitude 1 17

end Double

end Decimal

inductive FloatKind where
  | nan
  | infinite (negative : Bool)
  | finite (negative : Bool) (mantissa : Nat) (exponent : Int)

def FloatKind.ofFloat (x : Float) : FloatKind :=
  let bits : Nat := x.toBits.toNat
  let negative : Bool := bits / Nat.pow 2 63 == 1
  let biased : Nat := bits / Nat.pow 2 52 % Nat.pow 2 11
  let fraction : Nat := bits % Nat.pow 2 52
  if biased = 2047 then if fraction = 0 then .infinite negative else .nan
  else if biased = 0 then .finite negative fraction (-1074)
  else .finite negative (fraction + Nat.pow 2 52) ((biased : Int) - 1075)

def FloatKind.toInt? : FloatKind → Option Int
  | .finite negative mantissa exponent =>
    let whole : Option Nat :=
      if 0 ≤ exponent then some (mantissa * Nat.pow 2 exponent.toNat)
      else
        let unit := Nat.pow 2 (-exponent).toNat
        if mantissa % unit = 0 then some (mantissa / unit) else none
    whole.map fun n => if negative then -(n : Int) else n
  | _ => none

def FloatKind.isFinite : FloatKind → Bool
  | .finite .. => true
  | _ => false

/-- How decimals are laid out: positional when the point comes after at least `least` and at most
`most` digits, otherwise with a signed exponent of at least two digits. -/
structure DecimalLayout where
  least : Int
  most : Int

/-- Numbers from `0.0001` up to, but without, `10 ^ 16` are positional. -/
def DecimalLayout.standard : DecimalLayout := ⟨-3, 16⟩

def DecimalLayout.text (layout : DecimalLayout) (n : Nat) (k : Int) : Text :=
  let all := Nat.toDigits 10 n
  let digits := (all.reverse.dropWhile (· == '0')).reverse
  let point : Int := all.length + k
  if layout.least ≤ point ∧ point ≤ layout.most then
    if point ≤ 0 then '0' :: '.' :: List.replicate (-point).toNat '0' ++ digits
    else if digits.length ≤ point.toNat then
      digits ++ List.replicate (point.toNat - digits.length) '0' ++ ['.', '0']
    else digits.take point.toNat ++ '.' :: digits.drop point.toNat
  else
    let exponent := Nat.toDigits 10 (point - 1).natAbs
    let sign := if point - 1 < 0 then '-' else '+'
    let mantissa := if digits.length ≤ 1 then digits else digits.take 1 ++ '.' :: digits.drop 1
    mantissa ++ 'e' :: sign :: List.replicate (2 - exponent.length) '0' ++ exponent

/-- The shortest text that reads back as the number. -/
def FloatKind.text : FloatKind → Text
  | .nan => ['n', 'a', 'n']
  | .infinite negative => (if negative then ['-'] else []) ++ ['i', 'n', 'f']
  | .finite negative mantissa exponent =>
    let digits :=
      if mantissa = 0 then ['0', '.', '0']
      else
        let (n, k) := (Decimal.Double.mk mantissa exponent).shortest
        DecimalLayout.standard.text n k
    (if negative then ['-'] else []) ++ digits

end SyntaxSpans
